import Mathlib.Data.List.Forall2
import VirtualInstrument.Proofs.State.Memory
/- The listing order of entries: names that are list positions come first, in ascending order, and
   no name comes twice. Setting a name keeps the order, and entries that are in order are listed
   as they are when they are set one after the other. -/
namespace VirtualInstrument

/-- What an item of one list says about the item beside it holds of all items of the other. -/
theorem forall_right {α β : Type} {related : α → β → Prop} {property : β → Prop} {as : List α}
    {bs : List β} (all : List.Forall₂ related as bs) (each : ∀ a b, related a b → property b) :
    ∀ b ∈ bs, property b := by
  induction all with
  | nil =>
    intro b member
    cases member
  | cons both _ ih => exact List.forall_mem_cons.mpr ⟨each _ _ both, ih⟩

namespace Fields

variable {α β : Type}

/-- Where a name is listed: a position at its number, any other name behind all positions. -/
def rank (name : Text) : Nat := (position? name).getD 4294967295

theorem position?_lt {name : Text} {n : Nat} (position : position? name = some n) :
    n < 4294967295 := by
  unfold position? at position
  dsimp only at position
  split at position
  · rename_i proper
    cases position
    simp only [Bool.and_eq_true, decide_eq_true_eq] at proper
    exact proper.2
  · cases position

theorem precedes_iff (new old : Text) : precedes new old = true ↔ rank new < rank old := by
  unfold precedes rank
  split
  · rename_i n m first second
    rw [first, second, Option.getD_some, Option.getD_some, decide_eq_true_iff]
  · rename_i n first second
    have below := position?_lt first
    simp [first, second, below]
  · rename_i first
    rw [first, Option.getD_none]
    have most : (position? old).getD 4294967295 ≤ 4294967295 := by
      cases second : position? old with
      | none => exact Nat.le_refl _
      | some m => exact Nat.le_of_lt (position?_lt second)
    simp only [Bool.false_eq_true, false_iff]
    omega

def Ordered (names : List Text) : Prop := names.Pairwise fun a b => a ≠ b ∧ rank a ≤ rank b

instance (names : List Text) : Decidable (Ordered names) :=
  inferInstanceAs (Decidable (names.Pairwise fun a b => a ≠ b ∧ rank a ≤ rank b))

abbrev Listed (fields : Fields α) : Prop := Ordered fields.names

theorem has_iff (fields : Fields α) (name : Text) :
    fields.has name = true ↔ name ∈ fields.names := by
  induction fields with
  | nil => simp [has, get?, names]
  | cons entry rest ih =>
    have later : (get? rest name).isSome = true ↔ name ∈ names rest := ih
    simp only [has, get?, names, List.map_cons, List.mem_cons] at later ⊢
    split
    · rename_i same
      simp [same]
    · rename_i apart
      rw [later]
      simp [Ne.symm apart]

theorem names_replace (name : Text) (value : α) (fields : Fields α) :
    names (replace name value fields) = fields.names := by
  induction fields with
  | nil => rfl
  | cons entry rest ih =>
    unfold replace
    split
    · rename_i same
      simp [names, same]
    · simpa [names] using ih

theorem mem_names_insertNew (name : Text) (value : α) (fields : Fields α) (sought : Text) :
    sought ∈ names (insertNew name value fields) ↔ sought = name ∨ sought ∈ fields.names := by
  induction fields with
  | nil => simp [insertNew, names]
  | cons entry rest ih =>
    unfold insertNew
    split
    · simp [names]
    · simp only [names, List.map_cons, List.mem_cons] at ih ⊢
      rw [ih]
      exact or_left_comm

theorem insertNew_listed {fields : Fields α} (listed : Listed fields) {name : Text}
    (fresh : name ∉ fields.names) (value : α) : Listed (insertNew name value fields) := by
  induction fields with
  | nil => simp [insertNew, names, Ordered]
  | cons entry rest ih =>
    obtain ⟨leads, later⟩ := List.pairwise_cons.mp listed
    obtain ⟨apart, absent⟩ := not_or.mp (fun member => fresh (List.mem_cons.mpr member))
    unfold insertNew
    split
    · rename_i goes
      have ahead := (precedes_iff name entry.1).mp goes
      refine List.pairwise_cons.mpr ⟨?_, listed⟩
      intro other member
      rcases List.mem_cons.mp member with rfl | old
      · exact ⟨apart, Nat.le_of_lt ahead⟩
      · refine ⟨?_, Nat.le_trans (Nat.le_of_lt ahead) (leads other old).2⟩
        rintro rfl
        exact absent old
    · rename_i stays
      have behind : rank entry.1 ≤ rank name :=
        Nat.not_lt.mp fun ahead => stays ((precedes_iff name entry.1).mpr ahead)
      refine List.pairwise_cons.mpr ⟨?_, ih later absent⟩
      intro other member
      rcases (mem_names_insertNew name value rest other).mp member with rfl | old
      · exact ⟨fun same => apart same.symm, behind⟩
      · exact leads other old

theorem set_listed {fields : Fields α} (listed : Listed fields) (name : Text) (value : α) :
    Listed (fields.set name value) := by
  unfold set
  split
  · rw [Listed, names_replace]
    exact listed
  · rename_i absent
    exact insertNew_listed listed (fun member => absent ((has_iff fields name).mpr member)) value

theorem mem_names_set (fields : Fields α) (name : Text) (value : α) (sought : Text) :
    sought ∈ (fields.set name value).names ↔ sought = name ∨ sought ∈ fields.names := by
  unfold set
  split
  · rename_i present
    rw [names_replace, or_iff_right_of_imp]
    rintro rfl
    exact (has_iff fields sought).mp present
  · exact mem_names_insertNew name value fields sought

def wordsOf (names : List Text) : List Text := names.filter fun name => (position? name).isNone

theorem wordsOf_append (first second : List Text) :
    wordsOf (first ++ second) = wordsOf first ++ wordsOf second := List.filter_append first second

theorem wordsOf_cons (name : Text) (names : List Text) :
    wordsOf (name :: names) = wordsOf [name] ++ wordsOf names := wordsOf_append [name] names

theorem wordsOf_insertNew (name : Text) (value : α) (fields : Fields α) :
    wordsOf (names (insertNew name value fields)) = wordsOf fields.names ++ wordsOf [name] := by
  induction fields with
  | nil => rfl
  | cons entry rest ih =>
    rw [insertNew]
    split
    · -- only a position is listed before another name
      rename_i goes
      have position : wordsOf [name] = [] := by
        unfold precedes at goes
        cases found : position? name with
        | none => simp [found] at goes
        | some n => simp [wordsOf, found]
      show wordsOf (name :: names (entry :: rest)) = _
      rw [wordsOf_cons, position, List.append_nil, List.nil_append]
    · show wordsOf (entry.1 :: names (insertNew name value rest)) =
        wordsOf (entry.1 :: names rest) ++ wordsOf [name]
      rw [wordsOf_cons, ih, wordsOf_cons entry.1 (names rest), List.append_assoc]

theorem wordsOf_set (fields : Fields α) (name : Text) (value : α) :
    wordsOf (fields.set name value).names =
      wordsOf fields.names ++ wordsOf ([name].filter (· ∉ fields.names)) := by
  unfold set
  split
  · rename_i present
    have listed := (has_iff fields name).mp present
    rw [names_replace, List.filter_cons_of_neg (by simpa using listed)]
    exact (List.append_nil _).symm
  · rename_i absent
    have unlisted := fun listed => absent ((has_iff fields name).mpr listed)
    rw [wordsOf_insertNew, List.filter_cons_of_pos (by simpa using unlisted)]
    rfl

theorem insertNew_last {fields : Fields α} {name : Text} (value : α)
    (behind : ∀ old ∈ fields.names, rank old ≤ rank name) :
    insertNew name value fields = fields ++ [(name, value)] := by
  induction fields with
  | nil => rfl
  | cons entry rest ih =>
    obtain ⟨first, others⟩ := List.forall_mem_cons.mp behind
    have ahead : rank entry.1 ≤ rank name := first
    have stays : ¬ precedes name entry.1 = true := by
      rw [precedes_iff]
      omega
    rw [insertNew, if_neg stays, ih others, List.cons_append]

theorem set_behind {done rest : Fields α} {entry : Text × α}
    (listed : Listed (done ++ entry :: rest)) :
    done.get? entry.1 = none ∧ done.set entry.1 entry.2 = done ++ [entry] := by
  have behind : ∀ old ∈ names done, old ≠ entry.1 ∧ rank old ≤ rank entry.1 := by
    intro old member
    have pair := listed
    rw [Listed, names, List.map_append, Ordered, List.pairwise_append] at pair
    exact pair.2.2 old member entry.1 List.mem_cons_self
  have absent : ¬ done.has entry.1 = true := by
    rw [has_iff]
    intro member
    exact (behind entry.1 member).1 rfl
  refine ⟨by simpa [has] using absent, ?_⟩
  rw [set, if_neg absent, insertNew_last _ fun old member => (behind old member).2]

/-- Entries that are in order are not moved when they are set one after the other. -/
theorem foldl_set {done todo : Fields α} (listed : Listed (done ++ todo)) :
    todo.foldl (fun fields entry => fields.set entry.1 entry.2) done = done ++ todo := by
  induction todo generalizing done with
  | nil => exact (List.append_nil done).symm
  | cons entry rest ih =>
    rw [List.foldl_cons, (set_behind listed).2, ih, List.append_assoc]
    · rfl
    · rw [List.append_assoc]
      exact listed

theorem ofList_eq {fields : Fields α} (listed : Listed fields) : ofList fields = fields :=
  foldl_set listed

theorem Listed.sublist {fields : Fields α} {others : Fields β} (listed : Listed fields)
    (fewer : (names others).Sublist fields.names) : Listed others :=
  List.Pairwise.sublist fewer listed

theorem Listed.names_nodup {fields : Fields α} (listed : fields.Listed) : fields.names.Nodup :=
  List.Pairwise.imp And.left listed

theorem get?_of_mem {fields : Fields α} (once : fields.names.Nodup) {name : Text} {value : α}
    (member : (name, value) ∈ fields) : fields.get? name = some value := by
  induction fields with
  | nil => cases member
  | cons entry rest ih =>
    obtain ⟨absent, later⟩ := List.nodup_cons.mp once
    rcases List.mem_cons.mp member with rfl | old
    · exact if_pos rfl
    · have apart : entry.1 ≠ name := by
        rintro rfl
        exact absent (List.mem_map.mpr ⟨_, old, rfl⟩)
      exact (if_neg apart).trans (ih later old)

theorem get?_map (f : α → β) (fields : Fields α) (name : Text) :
    get? (fields.map fun entry => (entry.1, f entry.2)) name = (fields.get? name).map f := by
  induction fields with
  | nil => rfl
  | cons entry rest ih =>
    rw [List.map_cons, get?, get?]
    split
    · rfl
    · exact ih

abbrev Related (relation : α → β → Prop) : Fields α → Fields β → Prop :=
  List.Forall₂ fun entry other => entry.1 = other.1 ∧ relation entry.2 other.2

section Related
variable {relation : α → β → Prop} {fields : Fields α} {others : Fields β} {value : α} {other : β}

theorem Related.names_eq (related : Related relation fields others) : fields.names = others.names := by
  induction related with
  | nil => rfl
  | cons first _ ih => exact congrArg₂ List.cons first.1 ih

theorem Related.get?_rel (related : Related relation fields others) (name : Text) :
    Option.Rel relation (fields.get? name) (others.get? name) := by
  induction related with
  | nil => exact .none
  | @cons entry entry' rest rest' first more ih =>
    rw [Fields.get?, Fields.get?, first.1]
    split
    · exact .some first.2
    · exact ih

theorem Related.imp_mem {other_relation : α → β → Prop} (related : Related relation fields others)
    (each : ∀ entry ∈ fields, ∀ other, relation entry.2 other → other_relation entry.2 other) :
    Related other_relation fields others := by
  induction related with
  | nil => exact .nil
  | cons first _ ih =>
    obtain ⟨here, later⟩ := List.forall_mem_cons.mp each
    exact .cons ⟨first.1, here _ first.2⟩ (ih later)

theorem Related.replace (related : Related relation fields others) (name : Text)
    (new : relation value other) :
    Related relation (replace name value fields) (Fields.replace name other others) := by
  induction related with
  | nil => exact .nil
  | @cons entry entry' rest rest' first more ih =>
    rw [Fields.replace, Fields.replace, first.1]
    split
    · exact .cons ⟨rfl, new⟩ more
    · exact .cons first ih

theorem Related.insertNew (related : Related relation fields others) (name : Text)
    (new : relation value other) :
    Related relation (insertNew name value fields) (Fields.insertNew name other others) := by
  induction related with
  | nil => exact .cons ⟨rfl, new⟩ .nil
  | @cons entry entry' rest rest' first more ih =>
    rw [Fields.insertNew, Fields.insertNew, first.1]
    split
    · exact .cons ⟨rfl, new⟩ (.cons first more)
    · exact .cons first ih

theorem Related.set (related : Related relation fields others) (name : Text)
    (new : relation value other) :
    Related relation (fields.set name value) (others.set name other) := by
  have present : fields.has name = others.has name := by
    rw [Bool.eq_iff_iff, has_iff, has_iff, related.names_eq]
  unfold Fields.set
  rw [present]
  split
  · exact related.replace name new
  · exact related.insertNew name new

theorem related_map (f : α → β) (fields : Fields α) :
    Related (fun value other => f value = other) fields
      (fields.map fun entry => (entry.1, f entry.2)) := by
  rw [Related, List.forall₂_map_right_iff]
  exact List.forall₂_same.mpr fun _ _ => ⟨rfl, rfl⟩

theorem eq_map_of_related {f : α → β}
    (related : Related (fun value other => f value = other) fields others) :
    others = fields.map fun entry => (entry.1, f entry.2) := by
  induction related with
  | nil => rfl
  | cons first _ ih =>
    rw [List.map_cons, ← ih]
    exact congrArg (· :: _) (Prod.ext first.1.symm first.2.symm)

theorem map_set (f : α → β) (fields : Fields α) (name : Text) (value : α) :
    (fields.set name value).map (fun entry => (entry.1, f entry.2)) =
      Fields.set (fields.map fun entry => (entry.1, f entry.2)) name (f value) :=
  (eq_map_of_related ((related_map f fields).set name rfl)).symm

end Related

end Fields

end VirtualInstrument
