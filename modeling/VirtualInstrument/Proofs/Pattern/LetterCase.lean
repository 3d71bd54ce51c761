import VirtualInstrument.Pattern.Matcher
import VirtualInstrument.Proofs.Text.Digits
import VirtualInstrument.Proofs.Text.Utf8
import Mathlib.Data.List.Forall2
/- Letter case of the text. Two texts that differ in the case of ASCII letters only are matched in
   the same way: the search takes the same turns in both, so that it ends at the same place, with
   captures that differ in letter case only. -/
namespace VirtualInstrument

namespace Text

def SameLetter (u v : CodeUnit) : Prop :=
  u = v ∨ isLetter u ∧ isLetter v ∧ (u.toNat = v.toNat + 32 ∨ v.toNat = u.toNat + 32)

instance (u v : CodeUnit) : Decidable (SameLetter u v) := inferInstanceAs (Decidable (_ ∨ _))

/-- Texts of one length with the same letters, unit by unit. -/
abbrev SameSpelling : Text → Text → Prop := List.Forall₂ SameLetter

theorem SameLetter.refl (u : CodeUnit) : SameLetter u u := .inl rfl

theorem SameLetter.symm {u v : CodeUnit} (same : SameLetter u v) : SameLetter v u := by
  rcases same with rfl | ⟨first, second, apart⟩
  · exact .refl u
  · exact .inr ⟨second, first, apart.symm⟩

theorem SameLetter.cases {u v : CodeUnit} (same : SameLetter u v) : u = v ∨
    65 ≤ u.toNat ∧ u.toNat ≤ 90 ∧ v.toNat = u.toNat + 32 ∨
    65 ≤ v.toNat ∧ v.toNat ≤ 90 ∧ u.toNat = v.toNat + 32 := by
  rcases same with rfl | ⟨first, second, apart⟩
  · exact .inl rfl
  · rw [isLetter_iff] at first second
    omega

/-- A test that tells no capital letter from the small one tells no two cases of a letter apart. -/
theorem SameLetter.congr {α : Type} {test : CodeUnit → α}
    (capital : ∀ u v : CodeUnit, 65 ≤ u.toNat → u.toNat ≤ 90 → v.toNat = u.toNat + 32 →
      test u = test v) {u v : CodeUnit} (same : SameLetter u v) : test u = test v := by
  rcases same.cases with rfl | ⟨low, high, apart⟩ | ⟨low, high, apart⟩
  · rfl
  · exact capital u v low high apart
  · exact (capital v u low high apart).symm

theorem upperPoint_capital {n : Nat} (low : 65 ≤ n) (high : n ≤ 90) : upperPoint n = [n] := by
  have small : ¬ (97 ≤ n && n ≤ 122) = true := by
    simp
    omega
  rw [upperPoint, if_pos (by omega), if_neg small]

theorem upperPoint_small {n : Nat} (low : 97 ≤ n) (high : n ≤ 122) : upperPoint n = [n - 32] := by
  have small : (97 ≤ n && n ≤ 122) = true := by
    simp
    omega
  rw [upperPoint, if_pos (by omega), if_pos small]

theorem upperPoint_same {u v : CodeUnit} (same : SameLetter u v) :
    upperPoint u.toNat = upperPoint v.toNat := by
  have capital : ∀ u v : CodeUnit, 65 ≤ u.toNat → u.toNat ≤ 90 → v.toNat = u.toNat + 32 →
      upperPoint u.toNat = upperPoint v.toNat := by
    intro u v low high apart
    have back : v.toNat - 32 = u.toNat := by omega
    rw [upperPoint_capital low high, upperPoint_small (by omega) (by omega), back]
  exact SameLetter.congr capital same

theorem fold_capital {u : CodeUnit} (low : 65 ≤ u.toNat) (high : u.toNat ≤ 90) : fold u = u := by
  have ascii : ¬ 128 ≤ u := by
    rw [UInt16.le_iff_toNat_le]
    show ¬ 128 ≤ u.toNat
    omega
  simp [fold, upperPoint_capital low high, ascii]

theorem fold_small {u : CodeUnit} (low : 97 ≤ u.toNat) (high : u.toNat ≤ 122) :
    (fold u).toNat = u.toNat - 32 := by
  have ascii : ¬ 128 ≤ u := by
    rw [UInt16.le_iff_toNat_le]
    show ¬ 128 ≤ u.toNat
    omega
  have small : (u.toNat - 32).toUInt16.toNat = u.toNat - 32 := by
    rw [Nat.toUInt16, UInt16.toNat_ofNat']
    omega
  simp only [fold, upperPoint_small low high, ascii, decide_false, Bool.false_and,
    Bool.false_eq_true, if_false]
  exact small

theorem fold_same {u v : CodeUnit} (same : SameLetter u v) : fold u = fold v := by
  refine SameLetter.congr ?_ same
  intro u v low high apart
  rw [← UInt16.toNat_inj, fold_capital low high, fold_small (by omega) (by omega)]
  omega

theorem isLineTerminator_same {u v : CodeUnit} (same : SameLetter u v) :
    isLineTerminator u = isLineTerminator v := by
  refine SameLetter.congr ?_ same
  intro u v low high apart
  simp only [isLineTerminator]
  rw [Bool.eq_iff_iff]
  simp only [Bool.or_eq_true, beq_iff_eq, ← UInt16.toNat_inj, UInt16.reduceToNat]
  omega

theorem isWordUnit_same {u v : CodeUnit} (same : SameLetter u v) :
    isWordUnit u = isWordUnit v := by
  refine SameLetter.congr ?_ same
  intro u v low high apart
  rw [Bool.eq_iff_iff, isWordUnit_iff, isWordUnit_iff]
  omega

theorem mem_caseVariants_iff (u w : CodeUnit) : w ∈ caseVariants u ↔
    (w = u ∨ w = fold u ∨ ∃ run ∈ upperRuns, run.target ≤ (fold u).toNat ∧
      (fold u).toNat ≤ run.target + (run.last - run.first) ∧
      w = (run.first + ((fold u).toNat - run.target)).toUInt16) ∧ fold w = fold u := by
  simp only [caseVariants, List.mem_filter, List.mem_cons, List.mem_flatMap, beq_iff_eq]
  apply and_congr_left
  intro _
  apply or_congr_right
  apply or_congr_right
  apply exists_congr
  intro run
  apply and_congr_right
  intro _
  constructor
  · intro member
    split at member
    · cases member
    · rename_i inside
      simp only [Bool.or_eq_true, decide_eq_true_eq] at inside
      exact ⟨by omega, by omega, List.mem_singleton.mp member⟩
  · rintro ⟨low, high, image⟩
    have inside : ¬ ((fold u).toNat < run.target ||
        run.target + (run.last - run.first) < (fold u).toNat) = true := by
      simp only [Bool.or_eq_true, decide_eq_true_eq]
      omega
    rw [if_neg inside]
    exact List.mem_singleton.mpr image

theorem mem_caseVariants_self (u : CodeUnit) : u ∈ caseVariants u :=
  (mem_caseVariants_iff u u).mpr ⟨.inl rfl, rfl⟩

theorem mem_caseVariants_same {u v : CodeUnit} (same : SameLetter u v) :
    u ∈ caseVariants v := by
  have folded := fold_same same
  rw [mem_caseVariants_iff]
  refine ⟨?_, folded⟩
  rcases same.cases with rfl | ⟨low, high, _⟩ | ⟨low, high, apart⟩
  · exact .inl rfl
  · exact .inr (.inl ((fold_capital low high).symm.trans folded))
  · -- a small letter is listed by the run of the ASCII letters
    have capital := fold_capital low high
    have listed : (⟨97, 122, 1, 65⟩ : UpperRun) ∈ upperRuns := by
      rw [upperRuns]
      exact List.mem_cons_self
    refine .inr (.inr ⟨⟨97, 122, 1, 65⟩, listed, ?_, ?_, ?_⟩)
    · rw [capital]
      exact low
    · rw [capital]
      show v.toNat ≤ 65 + (122 - 97)
      omega
    · have sum : 97 + (v.toNat - 65) = u.toNat := by omega
      rw [capital, sum, toUInt16_toNat]

theorem mem_caseVariants_iff_same {u v : CodeUnit} (same : SameLetter u v) (w : CodeUnit) :
    w ∈ caseVariants u ↔ w ∈ caseVariants v := by
  have step {u v : CodeUnit} (same : SameLetter u v) (member : w ∈ caseVariants u) :
      w ∈ caseVariants v := by
    have folded := fold_same same
    obtain ⟨listed, shared⟩ := (mem_caseVariants_iff u w).mp member
    rcases listed with rfl | others
    · exact mem_caseVariants_same same
    · rw [folded] at others shared
      exact (mem_caseVariants_iff v w).mpr ⟨.inr others, shared⟩
  exact ⟨step same, step same.symm⟩

theorem upper_same {s t : Text} (same : SameSpelling s t) : upper s = upper t := by
  induction s using upper.induct generalizing t with
  | case1 =>
    cases same
    rfl
  | case2 u =>
    cases same with
    | cons first rest =>
      cases rest
      rw [upper, upper, upperPoint_same first]
  | case3 u v rest pair ih =>
    obtain ⟨x, _, first, behind, rfl⟩ := List.forall₂_cons_left_iff.mp same
    obtain ⟨y, more, second, later, rfl⟩ := List.forall₂_cons_left_iff.mp behind
    -- surrogates are no letters, so the pair is in both texts
    obtain ⟨high, low⟩ := Bool.and_eq_true_iff.mp pair
    rw [(surrogate_ranges u).1] at high
    rw [(surrogate_ranges v).2] at low
    have one : u = x := by
      rcases first.cases with same | ⟨_, _, _⟩ | ⟨_, _, _⟩
      · exact same
      · omega
      · omega
    have two : v = y := by
      rcases second.cases with same | ⟨_, _, _⟩ | ⟨_, _, _⟩
      · exact same
      · omega
      · omega
    subst one two
    rw [upper, if_pos pair, upper, if_pos pair, ih later]
  | case4 u v rest alone ih =>
    obtain ⟨x, _, first, behind, rfl⟩ := List.forall₂_cons_left_iff.mp same
    obtain ⟨y, more, second, later, rfl⟩ := List.forall₂_cons_left_iff.mp behind
    have surrogates : (isHighSurrogate u && isLowSurrogate v) =
        (isHighSurrogate x && isLowSurrogate y) := by
      rw [Bool.eq_iff_iff, Bool.and_eq_true, Bool.and_eq_true, (surrogate_ranges u).1,
        (surrogate_ranges v).2, (surrogate_ranges x).1, (surrogate_ranges y).2]
      rcases first.cases with rfl | ⟨_, _, _⟩ | ⟨_, _, _⟩ <;>
        rcases second.cases with rfl | ⟨_, _, _⟩ | ⟨_, _, _⟩ <;> omega
    rw [upper, if_neg alone, upper, if_neg (surrogates ▸ alone), upperPoint_same first, ih behind]

end Text

namespace Pattern
open Text

abbrev SameCaptures : List (Option Text) → List (Option Text) → Prop :=
  List.Forall₂ (Option.Rel SameSpelling)

structure Place.SameSpot (p q : Place) : Prop where
  before : SameSpelling p.before q.before
  after : SameSpelling p.after q.after
  captures : SameCaptures p.captures q.captures

abbrev SameEnd : Option Place → Option Place → Prop := Option.Rel Place.SameSpot

def SameFollow (f g : Follow) : Prop := ∀ p q, p.SameSpot q → SameEnd (f p) (g q)

theorem sameFollow_some : SameFollow some some := fun _ _ same => .some same

theorem Place.SameSpot.lengths_eq {p q : Place} (same : p.SameSpot q) :
    p.before.length = q.before.length ∧ p.after.length = q.after.length :=
  ⟨same.before.length_eq, same.after.length_eq⟩

theorem firstOf_same {one two : Option Place} {other another : Unit → Option Place}
    (first : SameEnd one two) (second : SameEnd (other ()) (another ())) :
    SameEnd (firstOf one other) (firstOf two another) := by
  cases first with
  | some same => exact .some same
  | none => exact second

theorem takeUnit_same {ahead : Bool} {accepts accepts' : CodeUnit → Bool}
    (test : ∀ u v, SameLetter u v → accepts u = accepts' v) {p q : Place} (same : p.SameSpot q)
    {f g : Follow} (follows : SameFollow f g) :
    SameEnd (takeUnit ahead accepts p f) (takeUnit ahead accepts' q g) := by
  obtain ⟨before, after, captures⟩ := p
  obtain ⟨before', after', captures'⟩ := q
  obtain ⟨behind, front, held⟩ := same
  dsimp only at behind front held
  cases ahead with
  | true =>
    cases front with
    | nil => exact .none
    | cons letter rest =>
      simp only [takeUnit, if_true, test _ _ letter]
      split
      · exact follows _ _ ⟨.cons letter behind, rest, held⟩
      · exact .none
  | false =>
    cases behind with
    | nil => exact .none
    | cons letter rest =>
      simp only [takeUnit, Bool.false_eq_true, if_false, test _ _ letter]
      split
      · exact follows _ _ ⟨rest, .cons letter front, held⟩
      · exact .none

theorem takeText_same {ahead : Bool} {s t : Text} (spelling : SameSpelling s t) {p q : Place}
    (same : p.SameSpot q) {f g : Follow} (follows : SameFollow f g) :
    SameEnd (takeText ahead s p f) (takeText ahead t q g) := by
  induction spelling generalizing p q with
  | nil => exact follows p q same
  | cons letter _ ih =>
    refine takeUnit_same ?_ same fun p q again => ih again
    intro u v other
    rw [fold_same letter, fold_same other]

theorem UnitSet.has_same (units : UnitSet) {u v : CodeUnit} (same : SameLetter u v) :
    units.has u = units.has v := by
  have listed (w : CodeUnit) :
      (units.items.any (·.has w) || (caseVariants w).any fun x => units.items.any (·.has x)) =
        (caseVariants w).any fun x => units.items.any (·.has x) := by
    rw [Bool.eq_iff_iff, Bool.or_eq_true, or_iff_right_iff_imp]
    intro here
    exact List.any_eq_true.mpr ⟨w, mem_caseVariants_self w, here⟩
  have variants : ((caseVariants u).any fun x => units.items.any (·.has x)) =
      (caseVariants v).any fun x => units.items.any (·.has x) := by
    rw [Bool.eq_iff_iff, List.any_eq_true, List.any_eq_true]
    exact exists_congr fun w => and_congr_left fun _ => mem_caseVariants_iff_same same w
  unfold UnitSet.has
  rw [listed u, listed v, variants]

theorem Place.SameSpot.atBoundary {p q : Place} (same : p.SameSpot q) :
    p.atBoundary = q.atBoundary := by
  obtain ⟨before, after, captures⟩ := p
  obtain ⟨before', after', captures'⟩ := q
  obtain ⟨behind, front, _⟩ := same
  dsimp only at behind front
  cases behind with
  | nil =>
    cases front with
    | nil => rfl
    | cons right _ => simp only [Place.atBoundary, isWordUnit_same right]
  | cons left _ =>
    cases front with
    | nil => simp only [Place.atBoundary, isWordUnit_same left]
    | cons right _ => simp only [Place.atBoundary, isWordUnit_same left, isWordUnit_same right]

theorem Place.SameSpot.upTo {p q p' q' : Place} (start : p.SameSpot p') (finish : q.SameSpot q') :
    SameSpelling (p.upTo q) (p'.upTo q') := by
  simp only [Place.upTo, start.lengths_eq.1, finish.lengths_eq.1]
  split
  · exact List.forall₂_take _ start.after
  · exact List.forall₂_take _ finish.after

theorem sameCaptures_set {held held' : List (Option Text)} (same : SameCaptures held held')
    (index : Nat) {t t' : Option Text} (spelling : Option.Rel SameSpelling t t') :
    SameCaptures (held.set index t) (held'.set index t') := by
  induction same generalizing index with
  | nil => exact .nil
  | cons first rest ih =>
    cases index with
    | zero => exact .cons spelling rest
    | succ index => exact .cons first (ih index)

theorem Place.SameSpot.capture {p q : Place} (same : p.SameSpot q) (index : Nat) {s t : Text}
    (spelling : SameSpelling s t) : (p.capture index s).SameSpot (q.capture index t) :=
  ⟨same.before, same.after, sameCaptures_set same.captures index (.some spelling)⟩

theorem Place.SameSpot.forget {p q : Place} (same : p.SameSpot q) (first next : Nat) :
    (p.forget first next).SameSpot (q.forget first next) := by
  refine ⟨same.before, same.after, ?_⟩
  rw [SameCaptures, List.forall₂_iff_get]
  refine ⟨by simpa [Place.forget] using same.captures.length_eq, ?_⟩
  intro index inside inside'
  simp only [Place.forget, List.get_eq_getElem, List.getElem_mapIdx]
  split
  · exact .none
  · exact same.captures.get (by simpa [Place.forget] using inside)
      (by simpa [Place.forget] using inside')

theorem sameCaptures_getElem? {held held' : List (Option Text)} (same : SameCaptures held held')
    (index : Nat) : Option.Rel (Option.Rel SameSpelling) held[index]? held'[index]? := by
  induction same generalizing index with
  | nil => exact .none
  | cons first _ ih =>
    cases index with
    | zero => exact .some first
    | succ index => exact ih index

theorem runRounds_same {body body' : Place → Follow → Option Place} {greedy : Bool}
    (rounds : ∀ p q f g, p.SameSpot q → SameFollow f g → SameEnd (body p f) (body' q g))
    {f g : Follow} (follows : SameFollow f g) (fuel least : Nat) (most : Option Nat) {p q : Place}
    (same : p.SameSpot q) :
    SameEnd (runRounds body greedy fuel least most p f)
      (runRounds body' greedy fuel least most q g) := by
  induction fuel generalizing least most p q with
  | zero => exact .none
  | succ fuel ih =>
    have onward : SameFollow
        (fun r => if least = 0 ∧ r.after.length = p.after.length then none
          else runRounds body greedy fuel (least - 1) (most.map (· - 1)) r f)
        (fun r => if least = 0 ∧ r.after.length = q.after.length then none
          else runRounds body' greedy fuel (least - 1) (most.map (· - 1)) r g) := by
      intro r s again
      simp only [again.lengths_eq.2, same.lengths_eq.2]
      split
      · exact .none
      · exact ih _ _ again
    have round := rounds p q _ _ same onward
    simp only [runRounds]
    split
    · exact follows p q same
    · split
      · exact round
      · split
        · exact firstOf_same round (follows p q same)
        · exact firstOf_same (follows p q same) round

/-- A tree leads to the same place in both texts, if what has to follow does. -/
def Tree.SameRuns (tree : Tree) : Prop := ∀ (ahead : Bool) (p q : Place) (f g : Follow),
  p.SameSpot q → SameFollow f g → SameEnd (tree.run ahead p f) (tree.run ahead q g)

theorem condition_same {holds holds' : Bool} (agree : holds = holds') {p q : Place}
    (same : p.SameSpot q) {f g : Follow} (follows : SameFollow f g) :
    SameEnd (if holds then f p else none) (if holds' then g q else none) := by
  rw [agree]
  split
  · exact follows p q same
  · exact .none

theorem isEmpty_same {s t : Text} (same : SameSpelling s t) : s.isEmpty = t.isEmpty := by
  cases same with
  | nil => rfl
  | cons => rfl

theorem sequence_same_runs {first second : Tree} (one : first.SameRuns) (two : second.SameRuns) :
    (Tree.sequence first second).SameRuns := by
  intro ahead p q f g same follows
  simp only [Tree.run]
  split
  · refine one ahead p q _ _ same ?_
    intro r s again
    exact two ahead r s f g again follows
  · refine two ahead p q _ _ same ?_
    intro r s again
    exact one ahead r s f g again follows

theorem group_same_runs (index : Nat) {body : Tree} (inside : body.SameRuns) :
    (Tree.group index body).SameRuns := by
  intro ahead p q f g same follows
  refine inside ahead p q _ _ same ?_
  intro r s again
  exact follows _ _ (again.capture index (same.upTo again))

theorem again_same_runs (index : Nat) : (Tree.again index).SameRuns := by
  intro ahead p q f g same follows
  have held := sameCaptures_getElem? same.captures index
  simp only [Tree.run]
  generalize p.captures[index]? = one at held
  generalize q.captures[index]? = other at held
  cases held with
  | none => exact follows p q same
  | some inner =>
    cases inner with
    | none => exact follows p q same
    | some spelling =>
      cases ahead with
      | true => exact takeText_same spelling same follows
      | false => exact takeText_same (List.forall₂_reverse_iff.mpr spelling) same follows

theorem look_same_runs (lookAhead negated : Bool) {body : Tree} (inside : body.SameRuns) :
    (Tree.look lookAhead negated body).SameRuns := by
  intro ahead p q f g same follows
  have seen := inside lookAhead p q some some same sameFollow_some
  simp only [Tree.run]
  generalize body.run lookAhead p some = one at seen
  generalize body.run lookAhead q some = other at seen
  cases seen with
  | some there =>
    cases negated with
    | true => exact .none
    | false => exact follows _ _ ⟨same.before, same.after, there.captures⟩
  | none =>
    cases negated with
    | true => exact follows p q same
    | false => exact .none

theorem rounds_same_runs (count : Repetition) (firstGroup nextGroup : Nat) {body : Tree}
    (inside : body.SameRuns) : (Tree.rounds count firstGroup nextGroup body).SameRuns := by
  intro ahead p q f g same follows
  simp only [Tree.run, same.lengths_eq.1, same.lengths_eq.2]
  refine runRounds_same ?_ follows _ _ _ same
  intro r s f g again onward
  exact inside ahead _ _ f g (again.forget firstGroup nextGroup) onward

theorem Tree.run_same (tree : Tree) : tree.SameRuns := by
  induction tree with
  | empty => exact fun ahead p q f g same follows => follows p q same
  | unit u =>
    intro ahead p q f g same follows
    refine takeUnit_same ?_ same follows
    intro v w letter
    rw [fold_same letter]
  | anyUnit =>
    intro ahead p q f g same follows
    refine takeUnit_same ?_ same follows
    intro v w letter
    rw [isLineTerminator_same letter]
  | oneOf units =>
    intro ahead p q f g same follows
    exact takeUnit_same (fun u v letter => units.has_same letter) same follows
  | start =>
    intro ahead p q f g same follows
    exact condition_same (isEmpty_same same.before) same follows
  | stop =>
    intro ahead p q f g same follows
    exact condition_same (isEmpty_same same.after) same follows
  | boundary negated =>
    intro ahead p q f g same follows
    exact condition_same (congrArg (· != negated) same.atBoundary) same follows
  | sequence first second one two => exact sequence_same_runs one two
  | choice first second one two =>
    intro ahead p q f g same follows
    exact firstOf_same (one ahead p q f g same follows) (two ahead p q f g same follows)
  | group index body inside => exact group_same_runs index inside
  | again index => exact again_same_runs index
  | look lookAhead negated body inside => exact look_same_runs lookAhead negated inside
  | rounds count firstGroup nextGroup body inside =>
    exact rounds_same_runs count firstGroup nextGroup inside

theorem searchFrom_same (pattern : Pattern) {before before' after after' : Text}
    (behind : SameSpelling before before') (front : SameSpelling after after') :
    SameEnd (pattern.searchFrom before after) (pattern.searchFrom before' after') := by
  have unheld : SameCaptures (List.replicate pattern.groups none)
      (List.replicate pattern.groups none) := by
    induction pattern.groups with
    | zero => exact .nil
    | succ groups ih => exact .cons .none ih
  induction front generalizing before before' with
  | nil =>
    have spot : Place.SameSpot ⟨before, [], List.replicate pattern.groups none⟩
        ⟨before', [], List.replicate pattern.groups none⟩ := ⟨behind, .nil, unheld⟩
    exact pattern.tree.run_same true _ _ _ _ spot sameFollow_some
  | @cons u v after after' letter rest ih =>
    have spot : Place.SameSpot ⟨before, u :: after, List.replicate pattern.groups none⟩
        ⟨before', v :: after', List.replicate pattern.groups none⟩ :=
      ⟨behind, .cons letter rest, unheld⟩
    have here := pattern.tree.run_same true _ _ _ _ spot sameFollow_some
    rw [searchFrom, searchFrom]
    generalize pattern.tree.run true _ some = one at here ⊢
    generalize pattern.tree.run true _ some = other at here ⊢
    cases here with
    | some found => exact .some found
    | none => exact ih (.cons letter behind)

theorem captures?_same (pattern : Pattern) {s t : Text} (same : SameSpelling s t) :
    Option.Rel (List.Forall₂ SameSpelling) (pattern.captures? s) (pattern.captures? t) := by
  have found := pattern.searchFrom_same .nil same
  rw [captures?, captures?]
  generalize pattern.searchFrom [] s = one at found
  generalize pattern.searchFrom [] t = other at found
  cases found with
  | none => exact .none
  | some spot =>
    refine .some ?_
    rw [List.forall₂_map_left_iff, List.forall₂_map_right_iff]
    refine spot.captures.imp ?_
    intro held held' spelling
    cases spelling with
    | some letters => exact letters
    | none => exact .nil

end Pattern

end VirtualInstrument
