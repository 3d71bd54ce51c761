import VirtualInstrument.Dispatch.Key
import VirtualInstrument.Proofs.Pattern.Span
import VirtualInstrument.Proofs.Pattern.Tail
/- Anchoring. A text is put between the beginning and the end of a pattern for whole commands as it
   is, without being read by itself first. It stays in its place as long as it does not close the
   group around it: then its anchored form is a pattern exactly when the text is one, and takes
   what the text takes, but only from the first unit of a command to the last. -/
namespace VirtualInstrument.Pattern

open Text

def wrapped (tokens : List Token) : List Token :=
  .place .start :: .opens .plain :: (tokens ++ tailTokens)

theorem groupNames_wrapped (tokens : List Token) :
    groupNames (wrapped tokens) = groupNames tokens := by
  simp [groupNames, wrapped, tailTokens]

def Progress.Grounded (p : Progress) : Prop :=
  ∀ frame, (p.frame :: p.outer).getLast? = some frame → frame.kind = .plain

theorem grounded_initial : Progress.initial.Grounded := by
  intro frame outermost
  cases outermost
  rfl

theorem Progress.Grounded.exchange_frame {frame other : Frame} {outer : List Frame} {groups count : Nat}
    (grounded : Grounded ⟨frame, outer, groups⟩) (same : other.kind = frame.kind) :
    Grounded ⟨other, outer, count⟩ := by
  intro last outermost
  cases outer with
  | nil =>
    cases outermost
    exact same.trans (grounded frame rfl)
  | cons enclosing outer => exact grounded last outermost

theorem Progress.Grounded.step {p q : Progress} {token : Token} (grounded : p.Grounded)
    (step : p.step? token = some q) : q.Grounded := by
  obtain ⟨frame, outer, groups⟩ := p
  cases token with
  | part tree =>
    cases step
    exact grounded.exchange_frame rfl
  | place tree =>
    cases step
    exact grounded.exchange_frame rfl
  | repeated count =>
    obtain ⟨other, repeated, same⟩ := Option.map_eq_some_iff.mp step
    cases same
    refine grounded.exchange_frame ?_
    unfold Frame.repeated? at repeated
    split at repeated
    · cases repeated
      rfl
    · cases repeated
  | bar =>
    cases step
    exact grounded.exchange_frame rfl
  | opens kind =>
    cases step
    exact grounded
  | closes =>
    cases outer with
    | nil => cases step
    | cons enclosing outer =>
      cases step
      have outside : Grounded ⟨enclosing, outer, groups⟩ := grounded
      exact outside.exchange_frame rfl

theorem Progress.Grounded.foldlM {tokens : List Token} {p q : Progress} (grounded : p.Grounded)
    (run : tokens.foldlM Progress.step? p = some q) : q.Grounded := by
  induction tokens generalizing p with
  | nil =>
    cases run
    exact grounded
  | cons token rest ih =>
    obtain ⟨next, step, later⟩ := Option.bind_eq_some_iff.mp run
    exact ih (grounded.step step) later

def ground : Frame := (Frame.opening .plain 0).push .start false 0

theorem foldlM_wrapped (tokens : List Token) :
    (wrapped tokens).foldlM Progress.step? Progress.initial =
      (tokens.foldlM Progress.step? (Progress.initial.within [ground])).bind
        (tailTokens.foldlM Progress.step? ·) := by
  exact List.foldlM_append

/-- An anchored text has the tree of the text, enclosed, if the text closes only groups of its
    own. -/
theorem treeOf?_wrapped {tokens : List Token}
    (own : (tokens.foldlM Token.depth? 0).isSome = true) :
    treeOf? (wrapped tokens) =
      (treeOf? tokens).map fun tree => .sequence .start (.sequence tree .stop) := by
  have within := foldlM_within (p := Progress.initial) own [ground]
  unfold treeOf?
  rw [foldlM_wrapped, within]
  cases run : tokens.foldlM Progress.step? Progress.initial with
  | none => rfl
  | some p =>
    have plain : p.Grounded := grounded_initial.foldlM run
    obtain ⟨frame, outer, groups⟩ := p
    cases outer with
    | nil =>
      have kind : frame.kind = .plain := plain frame rfl
      simp [Progress.within, tailTokens, Progress.step?, Frame.close, kind, ground, Frame.push,
        Frame.content, sequenceOf, choiceOf, Frame.opening]
    | cons enclosing outer =>
      cases outer with
      | nil => simp [Progress.within, tailTokens, Progress.step?]
      | cons next outer => simp [Progress.within, tailTokens, Progress.step?]

theorem treeOf?_unclosed {tokens : List Token}
    (own : (tokens.foldlM Token.depth? 0).isSome = true) (u : CodeUnit) :
    treeOf? (.place .start :: .opens .plain ::
      (tokens ++ [.part (.unit u), .place .stop])) = none := by
  have run : (Token.place .start :: .opens .plain ::
      (tokens ++ [.part (.unit u), .place .stop])).foldlM Progress.step? Progress.initial =
        (tokens.foldlM Progress.step? (Progress.initial.within [ground])).bind
          ([Token.part (.unit u), .place .stop].foldlM Progress.step? ·) := List.foldlM_append
  have within := foldlM_within (p := Progress.initial) own [ground]
  unfold treeOf?
  rw [run, within]
  cases tokens.foldlM Progress.step? Progress.initial with
  | none => rfl
  | some p => simp [Progress.within, Progress.step?]

theorem read?_eq (t : Text) : read? t = (tokens? ⟨[]⟩ t).bind fun first =>
    if !distinct (groupNames first) then none
    else ((tokens? ⟨groupNames first⟩ t).bind treeOf?).map (⟨·, (groupNames first).length⟩) := by
  unfold read?
  cases tokens? ⟨[]⟩ t with
  | none => rfl
  | some first =>
    simp only [Option.bind_eq_bind, Option.bind_some, Option.map_eq_bind, Option.bind_assoc]
    rfl

/-- A pattern closes only groups of its own. -/
theorem closesOwnGroups_of_read {t : Text} {pattern : Pattern} (read : read? t = some pattern) :
    ClosesOwnGroups t := by
  rw [read?_eq] at read
  obtain ⟨first, _, rest⟩ := Option.bind_eq_some_iff.mp read
  obtain ⟨tree, whole, _⟩ := Option.map_eq_some_iff.mp (Option.ite_none_left_eq_some.mp rest).2
  obtain ⟨tokens, cut, made⟩ := Option.bind_eq_some_iff.mp whole
  obtain ⟨p, run, _⟩ := Option.bind_eq_some_iff.mp made
  have depth : tokens.foldlM Token.depth? 0 = some p.outer.length := foldlM_depth run
  unfold ClosesOwnGroups
  rw [scan?_tokens cut, depth]
  rfl

end VirtualInstrument.Pattern

namespace VirtualInstrument.Dispatch

open Pattern

theorem anchor_eq (t : Text) : anchor t =
    Text.unit '^' :: Text.unit '(' :: Text.unit '?' :: Text.unit ':' :: (t ++ tail) := by
  have begins : text "^(?:" = [Text.unit '^', Text.unit '(', Text.unit '?', Text.unit ':'] := by
    decide
  have ends : text ")$" = tail := by decide
  rw [anchor, begins, ends]
  simp

theorem tokens?_anchor (scope : Scope) (t : Text) : tokens? scope (anchor t) =
    (tokensWithin scope (t.length + 4) (t ++ tail)).map (.place .start :: .opens .plain :: ·) := by
  have length : (anchor t).length = (t.length + 4) + 1 + 1 := by
    rw [anchor_eq]
    simp [tail]
  have start (rest : Text) : takeToken scope (Text.unit '^' :: rest) =
      some (.place .start, rest) := rfl
  have group (rest : Text) : takeToken scope
      (Text.unit '(' :: Text.unit '?' :: Text.unit ':' :: rest) =
        some (.opens .plain, rest) := rfl
  rw [tokens?, length, anchor_eq, tokensWithin_cons, start, Option.bind_some,
    tokensWithin_cons, group, Option.bind_some, Option.map_map]
  rfl

theorem not_escaped_of_tokens {scope : Scope} {t : Text} {tokens : List Token} {b : Bearing}
    (cut : tokens? scope t = some tokens) (scanned : scan? (free 0) t = some b) :
    b.escaped = false := by
  rw [scan?_tokens cut] at scanned
  obtain ⟨depth, _, same⟩ := Option.map_eq_some_iff.mp scanned
  rw [← same]
  rfl

section Anchored
variable {t : Text} {b : Bearing} (scanned : scan? (free 0) t = some b)
include scanned

theorem tokens?_anchor_settled (settled : b.escaped = false) (scope : Scope) :
    tokens? scope (anchor t) = (tokens? scope t).map wrapped := by
  have cut := tokensWithin_tail scope (Nat.le_add_right t.length 2)
  rw [tokens?_anchor]
  generalize tokensWithin scope (t.length + 4) (t ++ tail) = result at cut ⊢
  cases cut with
  | whole tokens own =>
    rw [own]
    rfl
  | slashed tokens scan =>
    rw [scan 0] at scanned
    obtain ⟨depth, _, same⟩ := Option.map_eq_some_iff.mp scanned
    rw [← same] at settled
    cases settled
  | broken missing =>
    rw [Option.eq_none_iff_forall_ne_some.mpr missing]
    rfl

theorem treeOf?_anchor_escaped (escaped : b.escaped = true) (scope : Scope) :
    (tokens? scope (anchor t)).bind treeOf? = none := by
  have cut := tokensWithin_tail scope (Nat.le_add_right t.length 2)
  rw [tokens?_anchor]
  generalize tokensWithin scope (t.length + 4) (t ++ tail) = result at cut ⊢
  cases cut with
  | whole tokens own =>
    rw [not_escaped_of_tokens own scanned] at escaped
    cases escaped
  | slashed tokens scan =>
    rw [scan 0] at scanned
    obtain ⟨depth, own, _⟩ := Option.map_eq_some_iff.mp scanned
    exact treeOf?_unclosed (by rw [own]; rfl) _
  | broken missing => rfl

end Anchored

/-- A text that closes only groups of its own is taken as a pattern for whole commands exactly when
    it is a pattern, and then as this pattern, enclosed. -/
theorem anchored?_eq {t : Text} (own : ClosesOwnGroups t) :
    anchored? t = (Pattern.read? t).map enclosed := by
  obtain ⟨b, scanned⟩ := Option.isSome_iff_exists.mp own
  have depth {scope : Scope} {tokens : List Token} (cut : tokens? scope t = some tokens) :
      (tokens.foldlM Token.depth? 0).isSome = true := by
    rw [scan?_tokens cut, Option.map_eq_some_iff] at scanned
    obtain ⟨last, found, _⟩ := scanned
    rw [found]
    rfl
  rw [anchored?, read?_eq, read?_eq]
  cases escaped : b.escaped with
  | false =>
    simp only [tokens?_anchor_settled scanned escaped]
    cases tokens? ⟨[]⟩ t with
    | none => rfl
    | some first =>
      simp only [Option.map_some, Option.bind_some, groupNames_wrapped]
      split
      · rfl
      · cases cut : tokens? ⟨groupNames first⟩ t with
        | none => rfl
        | some tokens =>
          simp only [Option.map_some, Option.bind_some, treeOf?_wrapped (depth cut),
            Option.map_map]
          rfl
  | true =>
    have missing (scope : Scope) : tokens? scope t = none := by
      refine Option.eq_none_iff_forall_ne_some.mpr ?_
      intro tokens cut
      rw [not_escaped_of_tokens cut scanned] at escaped
      cases escaped
    simp [missing, treeOf?_anchor_escaped scanned escaped]

end VirtualInstrument.Dispatch
