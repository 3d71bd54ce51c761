import VirtualInstrument.Proofs.Dispatch.Glob
import VirtualInstrument.Proofs.Pattern.LazySearch
import VirtualInstrument.Proofs.Text.Digits
/- A compiled glob is read back as what it was written as: an escaped unit stands for itself and a
   wildcard for a lazy group, so no unit of a key is taken for the syntax of patterns. -/
namespace VirtualInstrument.Dispatch
open Text Pattern Glob

def Reads (scope : Scope) (t : Text) (tokens : List Token) : Prop :=
  ∀ fuel, t.length ≤ fuel → tokensWithin scope fuel t = some tokens

theorem reads_nil (scope : Scope) : Reads scope [] [] := by
  intro fuel _
  cases fuel <;> rfl

theorem reads_cons {scope : Scope} {u : CodeUnit} {rest more : Text} {token : Token}
    {tokens : List Token} (head : takeToken scope (u :: rest) = some (token, more))
    (shorter : more.length ≤ rest.length) (tail : Reads scope more tokens) :
    Reads scope (u :: rest) (token :: tokens) := by
  intro fuel enough
  cases fuel with
  | zero => simp at enough
  | succ fuel =>
    have within : more.length ≤ fuel := by
      simp at enough
      omega
    simp [tokensWithin, head, tail fuel within]

theorem isSyntaxUnit_cases {u : CodeUnit} (syntaxUnit : isSyntaxUnit u = true) :
    u ∈ [unit '[', unit ']', unit '(', unit ')', 123, 125, unit '+', unit '|', unit '^', unit '\\',
      unit '.', unit '*', unit '?', unit '$'] := by
  simp only [isSyntaxUnit, isPatternUnit, Bool.or_eq_true, beq_iff_eq] at syntaxUnit
  simp only [List.mem_cons, List.not_mem_nil, or_false]
  simpa only [or_assoc] using syntaxUnit

theorem takeToken_escaped {u : CodeUnit} (scope : Scope) (rest : Text)
    (syntaxUnit : isSyntaxUnit u = true) :
    takeToken scope (unit '\\' :: u :: rest) = some (.part (.unit u), rest) := by
  have listed := isSyntaxUnit_cases syntaxUnit
  simp only [List.mem_cons, List.not_mem_nil, or_false] at listed
  rcases listed with rfl | rfl | rfl | rfl | rfl | rfl | rfl | rfl | rfl | rfl | rfl | rfl | rfl |
    rfl <;> rfl

theorem takeToken_plain {u : CodeUnit} (scope : Scope) (rest : Text)
    (plain : isSyntaxUnit u = false) :
    takeToken scope (u :: rest) = some (.part (.unit u), rest) := by
  have never : ∀ c, c ≠ '\uFFFD' → isSyntaxUnit (unit c) = true → glyph u ≠ c := by
    intro c other syntaxUnit shown
    rw [eq_unit_of_glyph shown other, syntaxUnit] at plain
    cases plain
  rw [takeToken]
  split <;> first | rfl | exact absurd ‹glyph u = _› (never _ (by decide) (by decide))

def unitTokens (literal : Text) : List Token := literal.map fun u => .part (.unit u)

theorem reads_escape {scope : Scope} (literal : Text) {rest : Text} {tokens : List Token}
    (later : Reads scope rest tokens) :
    Reads scope (escape literal ++ rest) (unitTokens literal ++ tokens) := by
  induction literal with
  | nil => exact later
  | cons u literal ih =>
    by_cases syntaxUnit : isSyntaxUnit u = true
    · have split : escape (u :: literal) ++ rest =
          unit '\\' :: u :: (escape literal ++ rest) := by simp [escape, syntaxUnit]
      rw [split]
      exact reads_cons (takeToken_escaped scope _ syntaxUnit) (by simp) ih
    · have split : escape (u :: literal) ++ rest = u :: (escape literal ++ rest) := by
        simp [escape, syntaxUnit]
      rw [split]
      exact reads_cons (takeToken_plain scope _ (by simpa using syntaxUnit)) (Nat.le_refl _) ih

def wildcardTokens (wildcard : Wildcard) : List Token :=
  [.opens (.capturing none), .part .anyUnit, .repeated ⟨wildcard.least, none, false⟩, .closes]

theorem reads_wildcard {scope : Scope} (wildcard : Wildcard) {rest : Text} {tokens : List Token}
    (later : Reads scope rest tokens) :
    Reads scope (wildcard.source ++ rest) (wildcardTokens wildcard ++ tokens) := by
  have closed : Reads scope (unit ')' :: rest) (.closes :: tokens) :=
    reads_cons rfl (Nat.le_refl _) later
  cases wildcard with
  | star =>
    have repeated : Reads scope (unit '*' :: unit '?' :: unit ')' :: rest)
        (.repeated ⟨0, none, false⟩ :: .closes :: tokens) := reads_cons rfl (by simp) closed
    exact reads_cons rfl (Nat.le_refl _) (reads_cons rfl (Nat.le_refl _) repeated)
  | placeholder digits =>
    have repeated : Reads scope (unit '+' :: unit '?' :: unit ')' :: rest)
        (.repeated ⟨1, none, false⟩ :: .closes :: tokens) := reads_cons rfl (by simp) closed
    exact reads_cons rfl (Nat.le_refl _) (reads_cons rfl (Nat.le_refl _) repeated)

def restTokens (rest : List (Wildcard × Text)) : List Token :=
  rest.flatMap fun (wildcard, literal) => wildcardTokens wildcard ++ unitTokens literal

theorem reads_rest {scope : Scope} (rest : List (Wildcard × Text)) {behind : Text}
    {tokens : List Token} (later : Reads scope behind tokens) :
    Reads scope (sourceRest rest ++ behind) (restTokens rest ++ tokens) := by
  induction rest with
  | nil => exact later
  | cons leg rest ih =>
    have whole := reads_wildcard leg.1 (reads_escape leg.2 ih)
    simpa [sourceRest, restTokens] using whole

def globTokens (g : Glob) : List Token :=
  .place .start :: .opens .plain ::
    (unitTokens g.first ++ (restTokens g.rest ++ [.closes, .place .stop]))

theorem reads_glob (scope : Scope) (g : Glob) :
    tokens? scope (anchor (escape g.first ++ sourceRest g.rest)) = some (globTokens g) := by
  have last : Reads scope (text ")$") [.closes, .place .stop] :=
    reads_cons rfl (Nat.le_refl _) (reads_cons rfl (Nat.le_refl _) (reads_nil scope))
  have body := reads_escape g.first (reads_rest g.rest last)
  have opened : Reads scope
      (unit '(' :: unit '?' :: unit ':' :: (escape g.first ++ (sourceRest g.rest ++ text ")$")))
      (.opens .plain :: (unitTokens g.first ++ (restTokens g.rest ++ [.closes, .place .stop]))) :=
    reads_cons rfl (by simp) body
  have whole : Reads scope
      (unit '^' :: unit '(' :: unit '?' :: unit ':' ::
        (escape g.first ++ (sourceRest g.rest ++ text ")$"))) (globTokens g) :=
    reads_cons rfl (Nat.le_refl _) opened
  have split : anchor (escape g.first ++ sourceRest g.rest) = unit '^' :: unit '(' :: unit '?' ::
      unit ':' :: (escape g.first ++ (sourceRest g.rest ++ text ")$")) := by
    rw [anchor, List.append_assoc, List.append_assoc]
    rfl
  rw [split]
  exact whole _ (Nat.le_refl _)

theorem groupNames_units (literal : Text) (tokens : List Token) :
    groupNames (unitTokens literal ++ tokens) = groupNames tokens := by
  induction literal with
  | nil => rfl
  | cons u literal ih => exact ih

theorem groupNames_rest (rest : List (Wildcard × Text)) (tokens : List Token) :
    groupNames (restTokens rest ++ tokens) =
      List.replicate rest.length none ++ groupNames tokens := by
  induction rest with
  | nil => rfl
  | cons leg rest ih =>
    have apart : restTokens (leg :: rest) ++ tokens =
        wildcardTokens leg.1 ++ (unitTokens leg.2 ++ (restTokens rest ++ tokens)) := by
      simp [restTokens]
    have one : ∀ more, groupNames (wildcardTokens leg.1 ++ more) = none :: groupNames more :=
      fun _ => rfl
    rw [apart, one, groupNames_units, ih]
    rfl

theorem groupNames_glob (g : Glob) :
    groupNames (globTokens g) = List.replicate g.rest.length none := by
  have body := groupNames_rest g.rest [.closes, .place .stop]
  have ends : groupNames [.closes, .place .stop] = [] := rfl
  have whole : groupNames (globTokens g) =
      groupNames (unitTokens g.first ++ (restTokens g.rest ++ [.closes, .place .stop])) := rfl
  rw [whole, groupNames_units, body, ends, List.append_nil]

/-! The tokens are folded into a tree. -/

def restTrees (index : Nat) : List (Wildcard × Text) → List Tree
  | [] => []
  | (wildcard, literal) :: rest =>
    lazyGroup index wildcard.least :: (literal.map .unit ++ restTrees (index + 1) rest)

structure Grows (p : Progress) (trees : List Tree) (groups : Nat) (next : Progress) : Prop where
  outer : next.outer = p.outer
  kind : next.frame.kind = p.frame.kind
  alternatives : next.frame.alternatives = p.frame.alternatives
  parts : next.frame.parts = trees.reverse ++ p.frame.parts
  groups : next.groups = p.groups + groups

theorem grows_trans {p q r : Progress} {first second : List Tree} {m n : Nat}
    (one : Grows p first m q) (two : Grows q second n r) :
    Grows p (first ++ second) (m + n) r := by
  refine ⟨two.outer.trans one.outer, two.kind.trans one.kind,
    two.alternatives.trans one.alternatives, ?_, ?_⟩
  · rw [two.parts, one.parts, List.reverse_append, List.append_assoc]
  · rw [two.groups, one.groups, Nat.add_assoc]

theorem foldlM_units (literal : Text) (p : Progress) :
    ∃ next, (unitTokens literal).foldlM Progress.step? p = some next ∧
      Grows p (literal.map .unit) 0 next := by
  induction literal generalizing p with
  | nil => exact ⟨p, rfl, rfl, rfl, rfl, rfl, rfl⟩
  | cons u literal ih =>
    let pushed : Progress := { p with frame := p.frame.push (.unit u) true p.groups }
    obtain ⟨next, run, grows⟩ := ih pushed
    have first : Grows p [.unit u] 0 pushed := ⟨rfl, rfl, rfl, rfl, rfl⟩
    exact ⟨next, run, grows_trans first grows⟩

theorem foldlM_wildcard (wildcard : Wildcard) (p : Progress) :
    ∃ next, (wildcardTokens wildcard).foldlM Progress.step? p = some next ∧
      Grows p [lazyGroup p.groups wildcard.least] 1 next :=
  ⟨_, rfl, rfl, rfl, rfl, rfl, rfl⟩

theorem foldlM_rest (rest : List (Wildcard × Text)) (p : Progress) :
    ∃ next, (restTokens rest).foldlM Progress.step? p = some next ∧
      Grows p (restTrees p.groups rest) rest.length next := by
  induction rest generalizing p with
  | nil => exact ⟨p, rfl, rfl, rfl, rfl, rfl, rfl⟩
  | cons leg rest ih =>
    obtain ⟨q, group, grouped⟩ := foldlM_wildcard leg.1 p
    obtain ⟨r, units, passed⟩ := foldlM_units leg.2 q
    obtain ⟨next, run, grows⟩ := ih r
    have counted : r.groups = p.groups + 1 := by rw [passed.groups, grouped.groups]
    rw [counted] at grows
    refine ⟨next, ?_, ?_⟩
    · have split : restTokens (leg :: rest) =
          wildcardTokens leg.1 ++ (unitTokens leg.2 ++ restTokens rest) := by simp [restTokens]
      rw [split, List.foldlM_append, group]
      simp only [Option.bind_eq_bind, Option.bind_some]
      rw [List.foldlM_append, units]
      exact run
    · have whole := grows_trans (grows_trans grouped passed) grows
      simpa [restTrees, Nat.add_comm] using whole

def bodyTrees (g : Glob) : List Tree := g.first.map .unit ++ restTrees 0 g.rest

theorem treeOf?_glob (g : Glob) :
    treeOf? (globTokens g) =
      some (.sequence .start (.sequence (sequenceOf (bodyTrees g)) .stop)) := by
  let begun : Progress := { Progress.initial with
    frame := Progress.initial.frame.push .start false 0 }
  let inner : Progress := ⟨Frame.opening .plain 0, [begun.frame], 0⟩
  obtain ⟨q, units, passed⟩ := foldlM_units g.first inner
  obtain ⟨r, legs, grown⟩ := foldlM_rest g.rest q
  have start : q.groups = 0 := passed.groups
  rw [start] at grown
  have body := grows_trans passed grown
  have parts : r.frame.parts = (bodyTrees g).reverse := by
    rw [body.parts]
    exact List.append_nil _
  have outer : r.outer = [begun.frame] := body.outer
  have kind : r.frame.kind = .plain := body.kind
  have alternatives : r.frame.alternatives = [] := body.alternatives
  have content : r.frame.content = sequenceOf (bodyTrees g) := by
    rw [Frame.content, alternatives, parts, List.reverse_reverse]
    rfl
  have closed : r.frame.close = (sequenceOf (bodyTrees g), true) := by
    rw [Frame.close, kind, content]
  have run : (globTokens g).foldlM Progress.step? Progress.initial =
      [Token.closes, Token.place .stop].foldlM Progress.step? r := by
    have opened : (globTokens g).foldlM Progress.step? Progress.initial =
        (unitTokens g.first ++ (restTokens g.rest ++ [Token.closes, Token.place .stop])).foldlM
          Progress.step? inner := rfl
    rw [opened, List.foldlM_append, units]
    simp only [Option.bind_eq_bind, Option.bind_some]
    rw [List.foldlM_append, legs]
    rfl
  have finish : [Token.closes, Token.place .stop].foldlM Progress.step? r =
      some { r with
        frame := (begun.frame.push (sequenceOf (bodyTrees g)) true r.frame.firstGroup).push .stop
          false r.groups
        outer := [] } := by
    simp [List.foldlM, Progress.step?, outer, closed]
  rw [treeOf?, run, finish]
  rfl

/-- A compiled glob is read as the beginning of a command, its body and the end. -/
theorem read?_glob (g : Glob) :
    anchored? (escape g.first ++ sourceRest g.rest) =
      some ⟨.sequence .start (.sequence (sequenceOf (bodyTrees g)) .stop), g.rest.length⟩ := by
  have unnamed : distinct (List.replicate g.rest.length none) = true := by
    simp [distinct]
  rw [anchored?, Pattern.read?, reads_glob]
  simp only [Option.bind_eq_bind, Option.bind_some, groupNames_glob, unnamed, Bool.not_true,
    Bool.false_eq_true, if_false, reads_glob, treeOf?_glob, List.length_replicate]

end VirtualInstrument.Dispatch
