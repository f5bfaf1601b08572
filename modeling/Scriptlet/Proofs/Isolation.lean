import Scriptlet.Proofs.Renumbering.Phases

/-!
# Scripts of one process

The calls on one script of a process are answered as if the script were alone (`scripts_isolated`):
neither the calls on other scripts that come between them nor the numbers that the counters of the
process have reached make a difference to what a host gets to see. The host is taken not to look at
these numbers itself.
-/

namespace Scriptlet

namespace Process

variable {ι α : Type} [DecidableEq ι]

/-- What belongs to one script. -/
def of (script : ι) (entries : List (ι × α)) : List α :=
  (entries.filter (·.1 = script)).map (·.2)

section Of

variable {script other : ι} (entry : α) (rest : List (ι × α))

private theorem of_cons_self : of script ((script, entry) :: rest) = entry :: of script rest := by
  simp [of]

private theorem of_cons_of_ne (different : other ≠ script) :
    of script ((other, entry) :: rest) = of script rest := by
  simp [of, different]

end Of

variable {process : Process ι} {script other : ι} {alone : Session}

/-- A call on a script is answered as in a session of its own. -/
theorem report_eq (similar : alone.Similar (process.scripts script)) {call : HostCall}
    (blind : call.Blind) :
    process.report script call = alone.reportAfter call.perform ∧
      (alone.after call).Similar ((process.after script call).scripts script) := by
  have numbered := similar.numberedFrom process.nextNode process.nextClass
  obtain ⟨same, later⟩ := numbered.call blind
  refine ⟨same, ?_⟩
  unfold after
  dsimp only
  rw [if_pos rfl]
  exact later

/-- A call on another script leaves the script as it is. -/
theorem scripts_after_of_ne (different : other ≠ script) (call : HostCall) :
    (process.after other call).scripts script = process.scripts script := by
  unfold after
  dsimp only
  rw [if_neg different.symm]

/-- The calls on a script are answered as in a session of its own, whatever other calls there are
between them. -/
theorem reports_of (similar : alone.Similar (process.scripts script))
    (calls : List (ι × HostCall)) (blind : ∀ call ∈ of script calls, call.Blind) :
    of script (process.reports calls) = alone.reports (of script calls) := by
  induction calls generalizing process alone with
  | nil => rfl
  | cons entry rest ih =>
    obtain ⟨caller, call⟩ := entry
    rw [reports]
    by_cases own : caller = script
    · subst own
      rw [of_cons_self] at blind ⊢
      obtain ⟨same, later⟩ := report_eq similar (blind call List.mem_cons_self)
      rw [of_cons_self, Session.reports, same,
        ih later fun call member => blind call (.tail _ member)]
    · rw [of_cons_of_ne _ _ own] at blind ⊢
      rw [of_cons_of_ne _ _ own]
      exact ih (by rwa [scripts_after_of_ne own]) blind

end Process

/-- Whatever numbers of nodes and classes the process has given out already, and whatever is called
on its other scripts in between, a host that does not look at numbers gets to see of a script what
it sees of the script alone. -/
theorem scripts_isolated {ι : Type} [DecidableEq ι] (setups : ι → Setup) (nextNode : NodeId)
    (nextClass : Nat) (calls : List (ι × HostCall)) (script : ι)
    (blind : ∀ call ∈ Process.of script calls, call.Blind) :
    Process.of script ((Process.start setups nextNode nextClass).reports calls) =
      (Session.start (setups script)).reports (Process.of script calls) :=
  Process.reports_of (.start (setups script)) calls blind

/-- A script that hands out a private field, and one of a class with a field of the same name. -/
def neighbours : Bool → Setup
  | true => ⟨"class A { private var p = 1; fun open() { return this.p; } } print A().open();",
      .standard, .standard, .standard⟩
  | false => ⟨"class B { private var p = 2; } print B;", .standard, .standard, .standard⟩

/-- Calls on both scripts in turn, and a hook that gives a class another name. -/
def neighbourCalls : List (Bool × HostCall) :=
  [(false, .resolve),
    (true, .customize ⟨.interpreting, .after, [.depending fun view =>
      (view.globals.find? "A").toList.map fun binding => .bind "C" binding.value]⟩),
    (false, .evaluate), (true, .evaluate), (false, .evaluate), (true, .evaluate)]

/-- The hosts of the two neighbours do not look at numbers, and the first one is answered as if it
were alone. -/
theorem scripts_isolated_neighbours :
    (∀ call ∈ Process.of true neighbourCalls, call.Blind) ∧
      Process.of true ((Process.start neighbours 5 3).reports neighbourCalls) =
        (Session.start (neighbours true)).reports (Process.of true neighbourCalls) := by
  have blind : ∀ call ∈ Process.of true neighbourCalls, call.Blind := by
    intro call member
    have listed : call ∈ [HostCall.customize ⟨.interpreting, .after, [.depending fun view =>
        (view.globals.find? "A").toList.map fun binding => .bind "C" binding.value]⟩,
        .evaluate, .evaluate] := member
    rcases List.mem_cons.mp listed with rfl | rest
    · exact Hook.blind_alias .interpreting .after "C" "A"
    · rcases List.mem_pair.mp rest with rfl | rfl <;> exact trivial
  exact ⟨blind, scripts_isolated neighbours 5 3 neighbourCalls true blind⟩

end Scriptlet
