import Scriptlet.Proofs.Session.Keeping

/-!
# The front end from two sessions

Hooks whose actions do not look at a session fail for reasons of their own (`Hook.Plain`). The
phases before a run therefore end alike from two sessions of the same source and hooks
(`Session.abreast_frontEnd`), as long as their trees may be edited alike (`Session.Accompanies`).
-/

namespace Scriptlet

/-- An action that does not look at the session to know what it does. -/
def HookAction.Plain : HookAction → Prop
  | .bind .. | .edit _ | .report .. | .abort _ | .depending _ => False
  | _ => True

/-- How an action changes the statements, given the next number of a node, and how many of these
numbers it takes. -/
def HookAction.edit? : HookAction → Option ((NodeId → Program → Program) × Nat)
  | .dropLast => some (fun _ => List.dropLast, 0)
  | .dropFirst => some (fun _ => List.tail, 0)
  | .reverse => some (fun _ => List.reverse, 0)
  | .appendPrint value => some (fun _ => (· ++ [.print (.literal value .start) .start]), 0)
  | .appendPrintVar name => some (fun id => (· ++ [.print (.var id name .start) .start]), 1)
  | .appendBreak => some (fun _ => (· ++ [.breaking .start]), 0)
  | .edit change => some (fun _ => change, 0)
  | _ => none

/-- The fault of a plain action. -/
def HookAction.fault? : HookAction → Option ScriptFault
  | .fail phase message => some (.hook phase message)
  | .raise name => some (.runtime ⟨.undefinedVariable name, .start⟩)
  | _ => none

/-- A hook of plain actions. -/
def Hook.Plain (hook : Hook) : Prop := ∀ action ∈ hook.actions, action.Plain

/-- A hook that changes statements before they are parsed. -/
def Hook.EditsEarly (hook : Hook) : Prop :=
  (hook.phase = .tokenizing ∨ hook.phase = .parsing ∧ hook.timing = .before) ∧
    ∃ action ∈ hook.actions, action.edit?.isSome

/-- Two steps end alike: both well and with the same value, or both with the same fault. -/
inductive EndAlike {α : Type} (after failed : Session → Session → Prop) :
    EStateM.Result ScriptFault Session α → EStateM.Result ScriptFault Session α → Prop where
  | ok {first second : Session} (value : α) : after first second →
      EndAlike after failed (.ok value first) (.ok value second)
  | error {first second : Session} (fault : ScriptFault) : failed first second →
      EndAlike after failed (.error fault first) (.error fault second)

namespace Session

variable {α β : Type}

/-- A step ends alike from related sessions. -/
def Abreast (step : SessionM α) (before after failed : Session → Session → Prop) : Prop :=
  ∀ first second, before first second → EndAlike after failed (step first) (step second)

variable {before middle after failed wider : Session → Session → Prop} {step : SessionM α}

namespace Abreast

/-- Giving a value goes alike from two sessions. -/
protected theorem pure (value : α) (keeps : ∀ first second, before first second →
    after first second) : Abreast (pure value) before after failed :=
  fun first second related => .ok value (keeps first second related)

private theorem bind {next : α → SessionM β} (start : Abreast step before middle failed)
    (rest : ∀ value, Abreast (next value) middle after failed) :
    Abreast (step >>= next) before after failed := by
  intro first second related
  have ended := start first second related
  generalize one : step first = firstEnd at ended
  generalize two : step second = secondEnd at ended
  cases ended with
  | ok value met =>
    rw [bind_of_ok one, bind_of_ok two]
    exact rest value _ _ met
  | error fault met =>
    rw [bind_of_error one, bind_of_error two]
    exact .error fault met

private theorem weaken (ends : Abreast step before after failed)
    (wide : ∀ first second, failed first second → wider first second) :
    Abreast step before after wider := by
  intro first second related
  have ended := ends first second related
  generalize step first = firstEnd at ended ⊢
  generalize step second = secondEnd at ended ⊢
  cases ended with
  | ok value met => exact .ok value met
  | error fault met => exact .error fault (wide _ _ met)

/-- Noting how a step ends keeps what does not depend on the events but by their growth. -/
protected theorem noting (item : Item) (ends : Abreast step before middle wider)
    (ok : ∀ first second, middle first second →
      after { first with events := first.events ++ [⟨item, none⟩] }
        { second with events := second.events ++ [⟨item, none⟩] })
    (error : ∀ fault first second, wider first second →
      failed { first with events := first.events ++ [⟨item, some fault⟩] }
        { second with events := second.events ++ [⟨item, some fault⟩] }) :
    Abreast (noting item step) before after failed := by
  intro first second related
  have ended := ends first second related
  unfold Session.noting
  generalize step first = firstEnd at ended ⊢
  generalize step second = secondEnd at ended ⊢
  cases ended with
  | ok value met => exact .ok value (ok _ _ met)
  | error fault met => exact .error fault (error fault _ _ met)

end Abreast

/-! ### Hooks -/

/-- A plain action fails with its own fault, or does not fail. -/
theorem perform_plain {action : HookAction} (plain : action.Plain) (session : Session) :
    perform action session = match action.fault? with
      | none => .ok () (session.leftBy (perform action))
      | some fault => .error fault session := by
  cases action with
  | bind | edit | report | abort | depending => exact plain.elim
  | _ => rfl

/-- What every plain action of some hooks keeps is kept by the hooks. -/
theorem Abreast.performAll {related : Session → Session → Prop} {actions : List HookAction}
    (plain : ∀ action ∈ actions, action.Plain)
    (keeps : ∀ action ∈ actions, ∀ first second, related first second →
      related (first.leftBy (perform action)) (second.leftBy (perform action))) :
    Abreast (performAll actions) related related related := by
  induction actions with
  | nil => exact .pure () fun _ _ related => related
  | cons action rest ih =>
    have performed : Abreast (perform action) related related related := by
      intro first second start
      have kept := keeps action List.mem_cons_self first second start
      rw [perform_plain (plain action List.mem_cons_self) first,
        perform_plain (plain action List.mem_cons_self) second]
      cases action.fault? with
      | none => exact .ok () kept
      | some fault => exact .error fault start
    exact performed.bind fun _ => ih (fun action member => plain action (.tail _ member))
      fun action member => keeps action (.tail _ member)

/-! ### The stages of the front end -/

/-- Two sessions on their way through the front end, one that began as `start` and one that began
as `origin`: they are of one source and have the same plain hooks, their trees may be edited
alike, and they have run the same items. -/
structure Accompanies (start origin first second : Session) : Prop where
  setup : second.setup = first.setup
  hooks : second.hooks = first.hooks
  plain : ∀ hook ∈ first.hooks, hook.Plain
  resolved : second.resolved = first.resolved
  events : ∃ events, first.events = start.events ++ events ∧ second.events = origin.events ++ events

/-- Before the parse the statements of the second session are those it began with, unless a hook
edits them. -/
structure Unparsed (start origin first second : Session) : Prop
    extends Accompanies start origin first second where
  missing : ∃ events, first.events = start.events ++ events ∧ ⟨.phase .parsing, none⟩ ∉ events
  statements : second.resolved = true ∨ (∀ hook ∈ second.hooks, ¬ hook.EditsEarly) →
    second.statements = origin.statements

/-- Before the source is read the second session has the tokens it began with. -/
structure Unread (start origin first second : Session) : Prop
    extends Unparsed start origin first second where
  tokens : second.tokens = origin.tokens
  comments : second.comments = origin.comments

/-- After that the two sessions have the same tokens. -/
structure Read (start origin first second : Session) : Prop
    extends Unparsed start origin first second where
  tokens : second.tokens = first.tokens
  comments : second.comments = first.comments

/-- After the parse the two sessions have the same statements as well. -/
structure Parsed (start origin first second : Session) : Prop
    extends Accompanies start origin first second where
  tokens : second.tokens = first.tokens
  comments : second.comments = first.comments
  statements : second.statements = first.statements
  nextId : second.nextId = first.nextId

/-- Wherever the two sessions stopped, the second has the tokens of the first or those it began
with, and the statements of the first or, before the parse, those it began with. -/
structure Repeats (start origin first second : Session) : Prop
    extends Accompanies start origin first second where
  tokens : second.tokens = origin.tokens ∨ second.tokens = first.tokens
  comments : second.comments = origin.comments ∨ second.comments = first.comments
  statements : Unparsed start origin first second ∨ second.statements = first.statements

variable {start origin first second : Session}

private theorem Unread.repeats (unread : Unread start origin first second) :
    Repeats start origin first second :=
  ⟨unread.toAccompanies, .inl unread.tokens, .inl unread.comments, .inl unread.toUnparsed⟩

private theorem Read.repeats (read : Read start origin first second) :
    Repeats start origin first second :=
  ⟨read.toAccompanies, .inr read.tokens, .inr read.comments, .inl read.toUnparsed⟩

private theorem Parsed.repeats (parsed : Parsed start origin first second) :
    Repeats start origin first second :=
  ⟨parsed.toAccompanies, .inr parsed.tokens, .inr parsed.comments, .inr parsed.statements⟩

/-! ### What an item that is noted changes -/

private theorem Accompanies.note (accompanies : Accompanies start origin first second)
    (event : Event) :
    Accompanies start origin { first with events := first.events ++ [event] }
      { second with events := second.events ++ [event] } := by
  obtain ⟨setup, hooks, plain, resolved, events, one, two⟩ := accompanies
  refine ⟨setup, hooks, plain, resolved, events ++ [event], ?_, ?_⟩
  · rw [one, List.append_assoc]
  · rw [two, List.append_assoc]

private theorem Unparsed.note (unparsed : Unparsed start origin first second) {event : Event}
    (other : event ≠ ⟨.phase .parsing, none⟩) :
    Unparsed start origin { first with events := first.events ++ [event] }
      { second with events := second.events ++ [event] } := by
  obtain ⟨events, one, missing⟩ := unparsed.missing
  refine ⟨unparsed.toAccompanies.note event, ⟨events ++ [event], ?_, ?_⟩, unparsed.statements⟩
  · rw [one, List.append_assoc]
  · intro member
    rcases List.mem_append.mp member with member | member
    · exact missing member
    · exact other (List.mem_singleton.mp member).symm

private theorem Unread.note (unread : Unread start origin first second) {event : Event}
    (other : event ≠ ⟨.phase .parsing, none⟩) :
    Unread start origin { first with events := first.events ++ [event] }
      { second with events := second.events ++ [event] } :=
  ⟨unread.toUnparsed.note other, unread.tokens, unread.comments⟩

private theorem Read.note (read : Read start origin first second) {event : Event}
    (other : event ≠ ⟨.phase .parsing, none⟩) :
    Read start origin { first with events := first.events ++ [event] }
      { second with events := second.events ++ [event] } :=
  ⟨read.toUnparsed.note other, read.tokens, read.comments⟩

private theorem Parsed.note (parsed : Parsed start origin first second) (event : Event) :
    Parsed start origin { first with events := first.events ++ [event] }
      { second with events := second.events ++ [event] } :=
  ⟨parsed.toAccompanies.note event, parsed.tokens, parsed.comments, parsed.statements,
    parsed.nextId⟩

/-! ### What a plain action changes -/

private theorem nextId_editStatements (session : Session) (edit : Program → Program) :
    (session.editStatements edit).nextId = session.nextId := by
  unfold editStatements
  split <;> rfl

private theorem statements_editStatements (session : Session) (edit : Program → Program) :
    (session.editStatements edit).statements =
      if session.resolved then session.statements else edit session.statements := by
  unfold editStatements
  split <;> rfl

/-- An edit of the statements. -/
theorem leftBy_edit {action : HookAction} {change : NodeId → Program → Program} {count : Nat}
    (edits : action.edit? = some (change, count)) (session : Session) :
    session.leftBy (perform action) = { session with
      nextId := session.nextId + count }.editStatements (change session.nextId) := by
  cases action with
  | dropLast | dropFirst | reverse | appendPrint | appendPrintVar | appendBreak | edit =>
    cases edits
    rfl
  | _ => cases edits

/-- A plain action that is no edit leaves the statements, and the next number of a node. -/
theorem leftBy_other {action : HookAction} (plain : action.Plain) (other : action.edit? = none)
    (session : Session) : (session.leftBy (perform action)).statements = session.statements ∧
      (session.leftBy (perform action)).nextId = session.nextId := by
  cases action with
  | bind | edit | report | abort | depending => exact plain.elim
  | dropLast | dropFirst | reverse | appendPrint | appendPrintVar | appendBreak => cases other
  | _ => exact ⟨rfl, rfl⟩

/-- What a plain action makes of the statements depends on them, on whether they are resolved and
on the next number of a node. -/
theorem edits_alike {action : HookAction} (plain : action.Plain)
    (resolved : second.resolved = first.resolved) (statements : second.statements =
      first.statements)
    (nextId : second.nextId = first.nextId) :
    (second.leftBy (perform action)).statements = (first.leftBy (perform action)).statements ∧
      (second.leftBy (perform action)).nextId = (first.leftBy (perform action)).nextId := by
  cases edits : action.edit? with
  | none =>
    obtain ⟨one, oneId⟩ := leftBy_other plain edits first
    obtain ⟨two, twoId⟩ := leftBy_other plain edits second
    rw [one, two, oneId, twoId]
    exact ⟨statements, nextId⟩
  | some edit =>
    rw [leftBy_edit edits, leftBy_edit edits, statements_editStatements, statements_editStatements,
      nextId_editStatements, nextId_editStatements]
    simp only [resolved, statements, nextId, and_self]

private theorem Accompanies.perform (accompanies : Accompanies start origin first second)
    (action : HookAction) : Accompanies start origin
      (first.leftBy (perform action)) (second.leftBy (perform action)) := by
  have one := spares_perform first action
  have two := spares_perform second action
  constructor
  · rw [setup_perform, setup_perform, accompanies.setup]
  · rw [one.hooks, two.hooks, accompanies.hooks]
  · rw [one.hooks]
    exact accompanies.plain
  · rw [one.resolved, two.resolved, accompanies.resolved]
  · rw [one.events, two.events]
    exact accompanies.events

private theorem Unparsed.perform (unparsed : Unparsed start origin first second)
    {action : HookAction} (plain : action.Plain)
    (early : action.edit?.isSome → ∃ hook ∈ second.hooks, hook.EditsEarly) : Unparsed start origin
      (first.leftBy (perform action)) (second.leftBy (perform action)) := by
  have one := spares_perform first action
  have two := spares_perform second action
  refine ⟨unparsed.toAccompanies.perform action, ?_, ?_⟩
  · rw [one.events]
    exact unparsed.missing
  · rw [two.resolved, two.hooks]
    intro fixed
    rw [← unparsed.statements fixed]
    rcases fixed with resolved | quiet
    · exact two.statements resolved
    · cases edits : action.edit? with
      | none => exact (leftBy_other plain edits second).1
      | some edit =>
        obtain ⟨hook, member, editsEarly⟩ := early (by rw [edits]; rfl)
        exact absurd editsEarly (quiet hook member)

private theorem Unread.perform (unread : Unread start origin first second) {action : HookAction}
    (plain : action.Plain) (early : action.edit?.isSome → ∃ hook ∈ second.hooks, hook.EditsEarly) :
    Unread start origin (first.leftBy (perform action)) (second.leftBy (perform action)) := by
  have two := spares_perform second action
  exact ⟨unread.toUnparsed.perform plain early, two.tokens.trans unread.tokens,
    two.comments.trans unread.comments⟩

private theorem Read.perform (read : Read start origin first second) {action : HookAction}
    (plain : action.Plain) (early : action.edit?.isSome → ∃ hook ∈ second.hooks, hook.EditsEarly) :
    Read start origin (first.leftBy (perform action)) (second.leftBy (perform action)) := by
  have one := spares_perform first action
  have two := spares_perform second action
  refine ⟨read.toUnparsed.perform plain early, ?_, ?_⟩
  · rw [one.tokens, two.tokens, read.tokens]
  · rw [one.comments, two.comments, read.comments]

private theorem Parsed.perform (parsed : Parsed start origin first second) {action : HookAction}
    (plain : action.Plain) :
    Parsed start origin (first.leftBy (perform action)) (second.leftBy (perform action)) := by
  have one := spares_perform first action
  have two := spares_perform second action
  obtain ⟨statements, nextId⟩ := edits_alike plain parsed.resolved parsed.statements parsed.nextId
  refine ⟨parsed.toAccompanies.perform action, ?_, ?_, statements, nextId⟩
  · rw [one.tokens, two.tokens, parsed.tokens]
  · rw [one.comments, two.comments, parsed.comments]

/-! ### Hooks between the stages -/

/-- The hooks of a slot keep what their actions keep and what does not depend on the events but by
their growth. -/
theorem Abreast.hooksAt {related : Session → Session → Prop} (phase : Phase) (timing : Timing)
    (accompanied : ∀ first second, related first second → Accompanies start origin first second)
    (noted : ∀ hook fault first second, related first second →
      related { first with events := first.events ++ [⟨.hook hook, fault⟩] }
        { second with events := second.events ++ [⟨.hook hook, fault⟩] })
    (keeps : ∀ first second, related first second → ∀ hook ∈ first.hooks, hook.phase = phase →
      hook.timing = timing → ∀ action ∈ hook.actions,
      related (first.leftBy (perform action)) (second.leftBy (perform action))) :
    Abreast (hooksAt phase timing) related related related := by
  -- The hooks of the slot are those of the session all along.
  have runs (hooks slot : List Hook) (part : ∀ hook ∈ slot, hook ∈ hooks ∧ hook.phase = phase ∧
      hook.timing = timing) : Abreast (runHooks slot)
        (fun first second => related first second ∧ first.hooks = hooks)
        (fun first second => related first second ∧ first.hooks = hooks) related := by
    induction slot with
    | nil => exact .pure () fun _ _ both => both
    | cons hook rest ih =>
      obtain ⟨member, inPhase, atTime⟩ := part hook List.mem_cons_self
      have plain (first second : Session) (both : related first second ∧ first.hooks = hooks) :
          hook.Plain := (accompanied _ _ both.1).plain hook (by rw [both.2]; exact member)
      have one : Abreast (noting (.hook hook) (Session.performAll hook.actions))
          (fun first second => related first second ∧ first.hooks = hooks)
          (fun first second => related first second ∧ first.hooks = hooks) related := by
        intro first second both
        have performed : Abreast (Session.performAll hook.actions)
            (fun first second => related first second ∧ first.hooks = hooks)
            (fun first second => related first second ∧ first.hooks = hooks)
            (fun first second => related first second ∧ first.hooks = hooks) := by
          refine .performAll (plain first second both) ?_
          rintro action listed first second ⟨met, same⟩
          refine ⟨keeps first second met hook (by rw [same]; exact member) inPhase atTime action
            listed, ?_⟩
          rw [(spares_perform first action).hooks, same]
        refine performed.noting (.hook hook) ?_ ?_ first second both
        · rintro first second ⟨met, same⟩
          exact ⟨noted hook none first second met, same⟩
        · rintro fault first second ⟨met, _⟩
          exact noted hook (some fault) first second met
      exact one.bind fun _ => ih fun hook member => part hook (.tail _ member)
  intro first second met
  have slots : second.slot phase timing = first.slot phase timing := by
    unfold slot
    rw [(accompanied _ _ met).hooks]
  have ended := runs first.hooks (first.slot phase timing) (by
    intro hook member
    obtain ⟨listed, fits⟩ := List.mem_filter.mp member
    simp only [Bool.and_eq_true, decide_eq_true_eq] at fits
    exact ⟨listed, fits⟩) first second ⟨met, rfl⟩
  have begun (session : Session) : Session.hooksAt phase timing session =
      runHooks (session.slot phase timing) session := rfl
  rw [begun, begun, slots]
  generalize runHooks (first.slot phase timing) first = firstEnd at ended ⊢
  generalize runHooks (first.slot phase timing) second = secondEnd at ended ⊢
  cases ended with
  | ok value both => exact .ok value both.1
  | error fault both => exact .error fault both

private theorem hooksAt_unread {phase : Phase} {timing : Timing} (early : phase = .tokenizing) :
    Abreast (hooksAt phase timing) (Unread start origin) (Unread start origin)
      (Unread start origin) := by
  apply Abreast.hooksAt phase timing (fun _ _ unread => unread.toAccompanies)
  · intro hook fault first second unread
    exact unread.note nofun
  · intro first second unread hook member inPhase atTime action listed
    have same : hook ∈ second.hooks := by
      rw [unread.hooks]
      exact member
    exact unread.perform (unread.plain hook member action listed)
      fun edits => ⟨hook, same, .inl (inPhase.trans early), action, listed, edits⟩

private theorem hooksAt_read {phase : Phase} {timing : Timing}
    (early : phase = .tokenizing ∨ phase = .parsing ∧ timing = .before) :
    Abreast (hooksAt phase timing) (Read start origin) (Read start origin)
      (Read start origin) := by
  apply Abreast.hooksAt phase timing (fun _ _ read => read.toAccompanies)
  · intro hook fault first second read
    exact read.note nofun
  · intro first second read hook member inPhase atTime action listed
    have same : hook ∈ second.hooks := by
      rw [read.hooks]
      exact member
    subst inPhase atTime
    exact read.perform (read.plain hook member action listed)
      fun edits => ⟨hook, same, early, action, listed, edits⟩

private theorem hooksAt_parsed (phase : Phase) (timing : Timing) :
    Abreast (hooksAt phase timing) (Parsed start origin) (Parsed start origin)
      (Parsed start origin) := by
  apply Abreast.hooksAt phase timing (fun _ _ parsed => parsed.toAccompanies)
  · intro hook fault first second parsed
    exact parsed.note _
  · intro first second parsed hook member _ _ action listed
    exact parsed.perform (parsed.plain hook member action listed)

/-! ### The phases -/

private theorem abreast_tokenize :
    Abreast tokenize (Unread start origin) (Read start origin) (Unread start origin) := by
  intro first second unread
  have same : scan second.setup.registry second.setup.source =
      scan first.setup.registry first.setup.source := by rw [unread.setup]
  rw [tokenize_eq, tokenize_eq, same]
  cases scan first.setup.registry first.setup.source with
  | error faults => exact .error _ unread
  | ok scanned =>
    obtain ⟨accompanies, missing, statements⟩ := unread.toUnparsed
    obtain ⟨setup, hooks, plain, resolved, events⟩ := accompanies
    exact .ok () ⟨⟨⟨setup, hooks, plain, resolved, events⟩, missing, statements⟩, rfl, rfl⟩

private theorem abreast_parseTokens :
    Abreast parseTokens (Read start origin) (Parsed start origin) (Read start origin) := by
  intro first second read
  have same : Grammar.parse second.setup.grammar second.tokens.toList 0 =
      Grammar.parse first.setup.grammar first.tokens.toList 0 := by rw [read.setup, read.tokens]
  rw [parseTokens_eq, parseTokens_eq, same]
  cases Grammar.parse first.setup.grammar first.tokens.toList 0 with
  | error faults => exact .error _ read
  | ok parsed =>
    obtain ⟨setup, hooks, plain, resolved, events⟩ := read.toAccompanies
    exact .ok () ⟨⟨setup, hooks, plain, resolved, events⟩, read.tokens, read.comments, rfl, rfl⟩

private theorem abreast_resolveStatements :
    Abreast resolveStatements (Parsed start origin) (Parsed start origin)
      (Parsed start origin) := by
  intro first second parsed
  have same : Scriptlet.resolve second.statements = Scriptlet.resolve first.statements := by
    rw [parsed.statements]
  rw [resolveStatements_eq, resolveStatements_eq, same]
  cases Scriptlet.resolve first.statements with
  | error fault => exact .error _ parsed
  | ok resolutions =>
    obtain ⟨⟨setup, hooks, plain, _, events⟩, tokens, comments, statements, nextId⟩ := parsed
    exact .ok resolutions ⟨⟨setup, hooks, plain, rfl, events⟩, tokens, comments, statements, nextId⟩

/-- The phases before a run end alike from two sessions that go along. -/
theorem abreast_frontEnd :
    Abreast frontEnd (Unread start origin) (Parsed start origin) (Repeats start origin) := by
  have tokenizing : Abreast (inPhase .tokenizing tokenize) (Unread start origin)
      (Read start origin) (Repeats start origin) := by
    refine ((hooksAt_unread rfl).weaken fun _ _ => Unread.repeats).bind fun _ => ?_
    have noted : Abreast (noting (.phase .tokenizing) tokenize) (Unread start origin)
        (Read start origin) (Unread start origin) :=
      abreast_tokenize.noting _ (fun _ _ read => read.note nofun)
        fun _ _ _ unread => unread.note nofun
    refine (noted.weaken fun _ _ => Unread.repeats).bind fun _ => ?_
    refine ((hooksAt_read (.inl rfl)).weaken fun _ _ => Read.repeats).bind fun _ => ?_
    exact .pure _ fun _ _ read => read
  have parsing : Abreast (inPhase .parsing parseTokens) (Read start origin)
      (Parsed start origin) (Repeats start origin) := by
    refine ((hooksAt_read (.inr ⟨rfl, rfl⟩)).weaken fun _ _ => Read.repeats).bind fun _ => ?_
    have noted : Abreast (noting (.phase .parsing) parseTokens) (Read start origin)
        (Parsed start origin) (Read start origin) :=
      abreast_parseTokens.noting _ (fun _ _ parsed => parsed.note _)
        fun _ _ _ read => read.note nofun
    refine (noted.weaken fun _ _ => Read.repeats).bind fun _ => ?_
    refine ((hooksAt_parsed .parsing .after).weaken fun _ _ => Parsed.repeats).bind fun _ => ?_
    exact .pure _ fun _ _ parsed => parsed
  have resolving : Abreast (inPhase .resolving resolveStatements) (Parsed start origin)
      (Parsed start origin) (Repeats start origin) := by
    refine ((hooksAt_parsed .resolving .before).weaken fun _ _ => Parsed.repeats).bind fun _ => ?_
    have noted : Abreast (noting (.phase .resolving) resolveStatements) (Parsed start origin)
        (Parsed start origin) (Parsed start origin) :=
      abreast_resolveStatements.noting _ (fun _ _ parsed => parsed.note _)
        fun _ _ _ parsed => parsed.note _
    refine (noted.weaken fun _ _ => Parsed.repeats).bind fun _ => ?_
    refine ((hooksAt_parsed .resolving .after).weaken fun _ _ => Parsed.repeats).bind fun _ => ?_
    exact .pure _ fun _ _ parsed => parsed
  exact tokenizing.bind fun _ => parsing.bind fun _ => resolving

end Session

end Scriptlet
