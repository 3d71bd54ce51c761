import VirtualInstrument.Pattern.Matcher
import VirtualInstrument.Pattern.Reader
/- How the matcher goes through a sequence of fixed units and lazy groups: fixed units leave it no
   choice, and a lazy group takes the shortest text behind which the rest of the pattern works. -/
namespace VirtualInstrument.Pattern
open Text

def SameLetters (a b : Text) : Prop := a.map fold = b.map fold

def runAll : List Tree → Place → Follow → Option Place
  | [], p, follow => follow p
  | tree :: rest, p, follow => tree.run true p fun q => runAll rest q follow

theorem run_sequenceOf (trees : List Tree) (p : Place) (follow : Follow) :
    (sequenceOf trees).run true p follow = runAll trees p follow := by
  induction trees generalizing p with
  | nil => rfl
  | cons tree rest ih =>
    cases rest with
    | nil => rfl
    | cons next rest =>
      have later : (fun q => (sequenceOf (next :: rest)).run true q follow) =
          fun q => runAll (next :: rest) q follow := funext fun q => ih q
      simp only [sequenceOf, Tree.run, if_true, later]
      rfl

def Place.ahead (p : Place) (count : Nat) : Place :=
  ⟨(p.after.take count).reverse ++ p.before, p.after.drop count, p.captures⟩

theorem ahead_ahead (p : Place) (first second : Nat) :
    (p.ahead first).ahead second = p.ahead (first + second) := by
  simp only [Place.ahead, List.drop_drop, ← List.append_assoc, ← List.reverse_append,
    ← List.take_add]

theorem same_letters_length {a b : Text} (same : SameLetters a b) : a.length = b.length := by
  have lengths := congrArg List.length same
  simpa using lengths

theorem same_letters_cons {u v : CodeUnit} {a b : Text} :
    SameLetters (u :: a) (v :: b) ↔ fold u = fold v ∧ SameLetters a b := by
  simp [SameLetters]

theorem runAll_units_there {literal : Text} {p : Place} {m after : Text}
    (same : SameLetters m literal) (there : p.after = m ++ after) (trees : List Tree)
    (follow : Follow) : runAll (literal.map .unit ++ trees) p follow =
      runAll trees (p.ahead literal.length) follow := by
  induction literal generalizing p m with
  | nil => rfl
  | cons u literal ih =>
    cases m with
    | nil => simp [SameLetters] at same
    | cons v m =>
      obtain ⟨letter, rest⟩ := same_letters_cons.mp same
      have taken : p.ahead 1 = ⟨v :: p.before, m ++ after, p.captures⟩ := by
        simp [Place.ahead, there]
      have later := ih (p := p.ahead 1) rest (by simp [taken])
      rw [ahead_ahead, Nat.add_comm] at later
      simp only [List.map_cons, List.cons_append, runAll, Tree.run, takeUnit, if_true, there,
        letter, beq_self_eq_true]
      rw [← taken]
      exact later

theorem runAll_units_missing {literal : Text} {p : Place}
    (missing : ∀ m after, p.after = m ++ after → ¬ SameLetters m literal) (trees : List Tree)
    (follow : Follow) : runAll (literal.map .unit ++ trees) p follow = none := by
  induction literal generalizing p with
  | nil => exact absurd rfl (missing [] p.after rfl)
  | cons u literal ih =>
    simp only [List.map_cons, List.cons_append, runAll, Tree.run, takeUnit, if_true]
    cases text : p.after with
    | nil => rfl
    | cons v rest =>
      by_cases letter : fold v = fold u
      · simp only [letter, beq_self_eq_true, if_true]
        apply ih
        intro m after split same
        refine missing (v :: m) after ?_ (same_letters_cons.mpr ⟨letter, same⟩)
        have behind : rest = m ++ after := split
        rw [text, behind, List.cons_append]
      · simp [letter]

def Reaches (p : Place) (count : Nat) : Prop :=
  count ≤ p.after.length ∧ ∀ u ∈ p.after.take count, isLineTerminator u = false

/-- What a lazy wildcard of some least length leads to: the place behind the shortest text from
    which there is a way on. -/
inductive Shortest (least : Nat) (p : Place) (follow : Follow) : Option Place → Prop
  | found (count : Nat) (place : Place) (enough : least ≤ count) (reached : Reaches p count)
      (shorter : ∀ k, least ≤ k → k < count → follow (p.ahead k) = none)
      (way : follow (p.ahead count) = some place) : Shortest least p follow (some place)
  | missing (nowhere : ∀ k, least ≤ k → Reaches p k → follow (p.ahead k) = none) :
      Shortest least p follow none

theorem reaches_succ_iff {p : Place} {u : CodeUnit} {rest : Text} (text : p.after = u :: rest)
    (count : Nat) :
    Reaches p (count + 1) ↔ isLineTerminator u = false ∧ Reaches (p.ahead 1) count := by
  simp only [Reaches, Place.ahead, text, List.length_cons, List.take_succ_cons, List.drop_succ_cons,
    List.drop_zero, List.forall_mem_cons]
  constructor
  · rintro ⟨bound, plain, others⟩
    exact ⟨plain, by omega, others⟩
  · rintro ⟨plain, bound, others⟩
    exact ⟨by omega, plain, others⟩

theorem shortest_of_next {least : Nat} {p : Place} {u : CodeUnit} {rest : Text} {follow : Follow}
    {result : Option Place} (text : p.after = u :: rest) (plain : isLineTerminator u = false)
    (later : Shortest least (p.ahead 1) follow result) :
    Shortest (least + 1) p follow result := by
  cases later with
  | found count place enough reached shorter way =>
    refine .found (count + 1) place (by omega) ((reaches_succ_iff text count).mpr
      ⟨plain, reached⟩) ?_ ?_
    · intro k enoughK less
      obtain ⟨k, rfl⟩ : ∃ j, k = j + 1 := ⟨k - 1, by omega⟩
      have gone := shorter k (by omega) (by omega)
      rwa [ahead_ahead, Nat.add_comm] at gone
    · rwa [ahead_ahead, Nat.add_comm] at way
  | missing nowhere =>
    refine .missing ?_
    intro k enoughK reached
    obtain ⟨k, rfl⟩ : ∃ j, k = j + 1 := ⟨k - 1, by omega⟩
    have gone := nowhere k (by omega) ((reaches_succ_iff text k).mp reached).2
    rwa [ahead_ahead, Nat.add_comm] at gone

theorem shortest_zero_of_one {p : Place} {follow : Follow} {result : Option Place}
    (here : follow p = none) (later : Shortest 1 p follow result) :
    Shortest 0 p follow result := by
  cases later with
  | found count place enough reached shorter way =>
    refine .found count place (Nat.zero_le _) reached ?_ way
    intro k _ less
    cases k with
    | zero => exact here
    | succ k => exact shorter (k + 1) (by omega) less
  | missing nowhere =>
    refine .missing ?_
    intro k _ reached
    cases k with
    | zero => exact here
    | succ k => exact nowhere (k + 1) (by omega) reached

theorem shortest_blocked {least : Nat} {p : Place} {follow : Follow}
    (blocked : ∀ count, ¬ Reaches p (count + 1)) : Shortest (least + 1) p follow none := by
  refine .missing ?_
  intro k enough reached
  obtain ⟨k, rfl⟩ : ∃ j, k = j + 1 := ⟨k - 1, by omega⟩
  exact absurd reached (blocked k)

theorem forget_nothing (p : Place) (index : Nat) : p.forget index index = p := by
  have none : ∀ i : Nat, ¬ (index ≤ i ∧ i < index) := by intro i; omega
  simp only [Place.forget, none, if_false]
  cases p
  simp [List.mapIdx_eq_zipIdx_map]

def takeAny : Place → Follow → Option Place := takeUnit true fun v => !isLineTerminator v

theorem shortest_round {least : Nat} {p : Place} {follow next : Follow}
    (later : ∀ u rest, p.after = u :: rest →
      Shortest least (p.ahead 1) follow (next (p.ahead 1))) :
    Shortest (least + 1) p follow (takeAny p next) := by
  cases text : p.after with
  | nil =>
    simp only [takeAny, takeUnit, if_true, text]
    refine shortest_blocked ?_
    rintro count ⟨bound, _⟩
    simp [text] at bound
  | cons u rest =>
    have taken : p.ahead 1 = { p with before := u :: p.before, after := rest } := by
      simp [Place.ahead, text]
    simp only [takeAny, takeUnit, if_true, text, ← taken]
    cases plain : isLineTerminator u with
    | false => exact shortest_of_next text plain (later u rest text)
    | true =>
      refine shortest_blocked ?_
      intro count reached
      have other := ((reaches_succ_iff text count).mp reached).1
      rw [plain] at other
      cases other

theorem runRounds_lazy (fuel least : Nat) (p : Place) (follow : Follow)
    (fuelled : p.after.length < fuel) :
    Shortest least p follow (runRounds takeAny false fuel least none p follow) := by
  induction fuel generalizing least p with
  | zero => omega
  | succ fuel ih =>
    have shorter : ∀ u rest, p.after = u :: rest → (p.ahead 1).after.length < fuel := by
      intro u rest text
      simp [Place.ahead, text] at fuelled ⊢
      omega
    cases least with
    | succ least =>
      simp only [runRounds, reduceCtorEq, if_false, ne_eq, Nat.succ_ne_zero, not_false_eq_true,
        if_true, false_and, Option.map_none, Nat.add_sub_cancel]
      refine shortest_round ?_
      intro u rest text
      exact ih least (p.ahead 1) (shorter u rest text)
    | zero =>
      simp only [runRounds, reduceCtorEq, if_false, ne_eq, not_true_eq_false, Bool.false_eq_true,
        true_and, Option.map_none]
      cases here : follow p with
      | some place =>
        exact .found 0 place (Nat.le_refl 0) ⟨Nat.zero_le _, by simp⟩
          (fun k _ less => absurd less (Nat.not_lt_zero k)) here
      | none =>
        refine shortest_zero_of_one here (shortest_round ?_)
        intro u rest text
        have moved : (p.ahead 1).after.length ≠ p.after.length := by
          simp [Place.ahead, text]
        rw [if_neg moved]
        exact ih 0 (p.ahead 1) (shorter u rest text)

def lazyGroup (index least : Nat) : Tree :=
  .group index (.rounds ⟨least, none, false⟩ (index + 1) (index + 1) .anyUnit)

theorem run_lazyGroup (index least : Nat) (p : Place) (follow : Follow) :
    Shortest least p (fun q => follow (q.capture index (p.upTo q)))
      ((lazyGroup index least).run true p follow) := by
  have body : (fun q : Place => Tree.run true .anyUnit (q.forget (index + 1) (index + 1))) =
      takeAny := by
    funext q
    rw [forget_nothing]
    rfl
  rw [lazyGroup, Tree.run, Tree.run, body]
  refine runRounds_lazy _ least p _ ?_
  omega

theorem upTo_ahead {p : Place} {count : Nat} (reached : Reaches p count) :
    p.upTo (p.ahead count) = p.after.take count := by
  have bound := reached.1
  simp [Place.upTo, Place.ahead, List.length_take, Nat.min_eq_left bound]

theorem searchFrom_start {pattern : Pattern} {rest : Tree}
    (tree : pattern.tree = .sequence .start rest) (t : Text) :
    pattern.searchFrom [] t =
      rest.run true ⟨[], t, List.replicate pattern.groups none⟩ some := by
  have behind : ∀ (t : Text) u before, pattern.searchFrom (u :: before) t = none := by
    intro t
    induction t with
    | nil =>
      intro u before
      simp [searchFrom, tree, Tree.run]
    | cons v t ih =>
      intro u before
      simp [searchFrom, tree, Tree.run, ih]
  cases t with
  | nil => simp [searchFrom, tree, Tree.run]
  | cons u t =>
    simp only [searchFrom, tree, Tree.run, behind, if_true, List.isEmpty_nil]
    split
    · rename_i found
      exact found.symm
    · rename_i missing
      exact missing.symm

end VirtualInstrument.Pattern
