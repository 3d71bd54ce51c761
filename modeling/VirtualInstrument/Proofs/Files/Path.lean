import Mathlib.Data.List.Infix
import VirtualInstrument.Files.Path
import VirtualInstrument.Proofs.Text.Split
/- The segments that an absolute path settles to are names: none is empty, a step in place or to the
   parent, and none has a slash in it. A path that is written with names settles to these names, so
   settled paths can be compared, taken apart and put together name by name. -/
namespace VirtualInstrument.Path
open Text

structure IsName (segment : Text) : Prop where
  filled : segment ≠ []
  onward : segment ≠ here
  downward : segment ≠ parent
  whole : slash ∉ segment

theorem settleSegment_name {segment : Text} (name : IsName segment) (absolute : Bool)
    (settled : List Text) : settleSegment absolute settled segment = segment :: settled := by
  unfold settleSegment
  rw [if_neg, if_pos name.downward]
  simp [name.filled, name.onward]

theorem foldl_settle_names {names : List Text} (all : ∀ name ∈ names, IsName name)
    (absolute : Bool) (settled : List Text) :
    names.foldl (settleSegment absolute) settled = names.reverse ++ settled := by
  induction names generalizing settled with
  | nil => rfl
  | cons name names ih =>
    obtain ⟨first, others⟩ := List.forall_mem_cons.mp all
    rw [List.foldl_cons, settleSegment_name first, ih others, List.reverse_cons, List.append_assoc]
    rfl

/-- An absolute path never keeps a step to the parent: there is a name to take back, or the path is
    at the top. -/
theorem settleSegment_names {settled : List Text} (all : ∀ name ∈ settled, IsName name)
    {segment : Text} (whole : slash ∉ segment) :
    ∀ name ∈ settleSegment true settled segment, IsName name := by
  unfold settleSegment
  split
  · exact all
  · rename_i proper
    simp only [Bool.or_eq_true, List.isEmpty_iff, decide_eq_true_eq, not_or] at proper
    split
    · rename_i downward
      exact List.forall_mem_cons.mpr ⟨⟨proper.1, proper.2, downward, whole⟩, all⟩
    · cases settled with
      | nil => simp
      | cons last rest =>
        obtain ⟨first, others⟩ := List.forall_mem_cons.mp all
        simpa [first.downward] using others

theorem place_names (path : Text) : ∀ name ∈ place path, IsName name := by
  have fold (segments settled : List Text) (whole : ∀ segment ∈ segments, slash ∉ segment)
      (all : ∀ name ∈ settled, IsName name) :
      ∀ name ∈ segments.foldl (settleSegment true) settled, IsName name := by
    induction segments generalizing settled with
    | nil => exact all
    | cons segment segments ih =>
      obtain ⟨first, others⟩ := List.forall_mem_cons.mp whole
      exact ih _ others (settleSegment_names all first)
  intro name member
  rw [place, settle, List.mem_reverse] at member
  exact fold _ [] (fun _ => not_mem_of_mem_split) (List.forall_mem_nil _) name member

theorem joinSegments_single (segment : Text) : joinSegments [segment] = segment := by
  simp [joinSegments, join]

theorem joinSegments_cons (first : Text) {rest : List Text} (more : rest ≠ []) :
    joinSegments (first :: rest) = first ++ slash :: joinSegments rest := by
  obtain ⟨second, others, rfl⟩ := List.exists_cons_of_ne_nil more
  rfl

theorem foldl_settle_joined {names : List Text} (all : ∀ name ∈ names, IsName name)
    (absolute : Bool) (settled : List Text) :
    (split slash (joinSegments names)).foldl (settleSegment absolute) settled =
      names.reverse ++ settled := by
  cases names with
  | nil => rfl
  | cons name names =>
    rw [joinSegments, split_join (List.cons_ne_nil _ _) fun piece member => (all piece member).whole]
    exact foldl_settle_names all absolute settled

theorem settle_append {names : List Text} (all : ∀ name ∈ names, IsName name) (absolute : Bool)
    (front : Text) :
    settle absolute (front ++ slash :: joinSegments names) = settle absolute front ++ names := by
  rw [settle, split_append, List.foldl_append, foldl_settle_joined all, List.reverse_append,
    List.reverse_reverse]
  rfl

theorem place_slash {names : List Text} (all : ∀ name ∈ names, IsName name) :
    place (slash :: joinSegments names) = names := settle_append all true []

theorem place_absolute (path : Text) : place (absolute path) = place path :=
  place_slash (place_names path)

theorem absolute_eq_iff (path other : Text) :
    absolute path = absolute other ↔ place path = place other := by
  constructor
  · intro same
    rw [← place_absolute path, same, place_absolute other]
  · intro same
    rw [absolute, same, absolute]

theorem joinSegments_ne_nil {names : List Text} (all : ∀ name ∈ names, IsName name)
    (some_name : names ≠ []) : joinSegments names ≠ [] := by
  obtain ⟨first, rest, rfl⟩ := List.exists_cons_of_ne_nil some_name
  obtain ⟨name, -⟩ := List.forall_mem_cons.mp all
  cases rest with
  | nil =>
    rw [joinSegments_single]
    exact name.filled
  | cons second others => simp [joinSegments_cons]

theorem getLast?_behind (front : Text) {names : List Text} (all : ∀ name ∈ names, IsName name)
    (some_name : names ≠ []) :
    (front ++ slash :: joinSegments names).getLast? = (joinSegments names).getLast? := by
  obtain ⟨u, rest, filled⟩ := List.exists_cons_of_ne_nil (joinSegments_ne_nil all some_name)
  rw [filled, List.append_cons, List.getLast?_append, List.getLast?_cons]
  rfl

theorem getLast?_joinSegments {names : List Text} (all : ∀ name ∈ names, IsName name) :
    (joinSegments names).getLast? ≠ some slash := by
  induction names with
  | nil => simp [joinSegments, join]
  | cons name names ih =>
    obtain ⟨first, others⟩ := List.forall_mem_cons.mp all
    by_cases more : names = []
    · subst more
      intro ends
      rw [joinSegments_single] at ends
      exact first.whole (List.mem_of_getLast? ends)
    · rw [joinSegments_cons name more, getLast?_behind name others more]
      exact ih others

theorem joined_names {root : Text} (rooted : isAbsolute root = true) {names : List Text}
    (all : ∀ name ∈ names, IsName name) (some_name : names ≠ []) :
    joined (root :: names) = slash :: joinSegments (place root ++ names) := by
  obtain ⟨u, rest, rfl⟩ : ∃ u rest, root = u :: rest := by
    cases root with
    | nil => cases rooted
    | cons u rest => exact ⟨u, rest, rfl⟩
  have kept : ((u :: rest) :: names).filter (!·.isEmpty) = (u :: rest) :: names := by
    rw [List.filter_eq_self]
    refine List.forall_mem_cons.mpr ⟨rfl, fun name member => ?_⟩
    simpa using (all name member).filled
  have both : ∀ name ∈ place (u :: rest) ++ names, IsName name := by
    intro name member
    exact (List.mem_append.mp member).elim (place_names _ name) (all name)
  have filled := joinSegments_ne_nil both (List.append_ne_nil_of_right_ne_nil _ some_name)
  have first : isAbsolute ((u :: rest) ++ slash :: joinSegments names) = true := rooted
  have last : ((u :: rest) ++ slash :: joinSegments names).getLast? ≠ some slash := by
    rw [getLast?_behind _ all some_name]
    exact getLast?_joinSegments all
  rw [joined, kept, joinSegments_cons _ some_name, normalize]
  simp only [first, if_true, settle_append all]
  rw [← place, if_neg (by simpa using filled), if_neg (by simpa using last), List.append_nil]

/-- Names that lead down from the place of one path to that of another. -/
structure Below (root path : Text) (names : List Text) : Prop where
  strictly : names ≠ []
  leads : place path = place root ++ names

theorem Below.each_is_name {root path : Text} {names : List Text} (below : Below root path names) :
    ∀ name ∈ names, IsName name := by
  intro name member
  refine place_names path name ?_
  rw [below.leads]
  exact List.mem_append_right _ member

theorem Below.unique {root path : Text} {names others : List Text} (below : Below root path names)
    (again : Below root path others) : names = others :=
  List.append_cancel_left (below.leads.symm.trans again.leads)

theorem below_joined {root : Text} (rooted : isAbsolute root = true) {names : List Text}
    (all : ∀ name ∈ names, IsName name) (some_name : names ≠ []) :
    Below root (joined (root :: names)) names := by
  refine ⟨some_name, ?_⟩
  rw [joined_names rooted all some_name]
  refine place_slash fun name member => ?_
  exact (List.mem_append.mp member).elim (place_names _ name) (all name)

theorem wayBetween_append (base names : List Text) : wayBetween base (base ++ names) = names := by
  induction base with
  | nil => cases names <;> rfl
  | cons name base ih => rw [List.cons_append, wayBetween, if_pos rfl, ih]

/-- The way to a place that is not below another one begins with a step to the parent. -/
theorem wayBetween_cases (base target : List Text) :
    (∃ names, target = base ++ names) ∨ ∃ rest, wayBetween base target = parent :: rest := by
  induction base generalizing target with
  | nil => exact .inl ⟨target, rfl⟩
  | cons name base ih =>
    cases target with
    | nil => exact .inr ⟨_, rfl⟩
    | cons other target =>
      rw [wayBetween]
      split
      · rename_i same
        subst same
        rcases ih target with ⟨names, rfl⟩ | up
        · exact .inl ⟨names, rfl⟩
        · exact .inr up
      · exact .inr ⟨_, rfl⟩

/-- The relative path begins with two points when it goes up, and when the first name on the way
    down does. -/
theorem parent_prefix_joined {first : Text} (name : IsName first) (rest : List Text) :
    parent <+: joinSegments (first :: rest) ↔ parent <+: first := by
  by_cases more : rest = []
  · subst more
    rw [joinSegments_single]
  · rw [joinSegments_cons first more]
    constructor
    · intro begins
      -- what two points begin with is empty, or a step in place, or the two points
      have starts : parent.inits = [[], here, parent] := by decide
      rcases List.prefix_or_prefix_of_prefix begins (List.prefix_append first _) with whole | short
      · exact whole
      · have listed := (List.mem_inits first parent).mpr short
        rw [starts] at listed
        simp [name.filled, name.onward, name.downward] at listed
    · intro begins
      exact begins.trans (List.prefix_append _ _)

theorem relative_of_leads {root path : Text} {names : List Text}
    (leads : place path = place root ++ names) : relative root path = joinSegments names := by
  rw [relative, leads, wayBetween_append]

theorem parent_prefix_relative {root path : Text}
    (apart : ∀ names, place path ≠ place root ++ names) : parent <+: relative root path := by
  rcases wayBetween_cases (place root) (place path) with ⟨names, leads⟩ | ⟨rest, up⟩
  · exact absurd leads (apart names)
  · rw [relative, up]
    by_cases more : rest = []
    · subst more
      rw [joinSegments_single]
    · rw [joinSegments_cons parent more]
      exact List.prefix_append _ _

/-- Names can be joined to a path one by one or as one relative path. -/
theorem joined_joinSegments (root : Text) {names : List Text} (all : ∀ name ∈ names, IsName name)
    (some_name : names ≠ []) : joined [root, joinSegments names] = joined (root :: names) := by
  have filled := joinSegments_ne_nil all some_name
  have kept : names.filter (!·.isEmpty) = names := by
    rw [List.filter_eq_self]
    intro name member
    simpa using (all name member).filled
  have single : [joinSegments names].filter (!·.isEmpty) = [joinSegments names] := by
    simp [filled]
  have front (parts : List Text) : (root :: parts).filter (!·.isEmpty) =
      [root].filter (!·.isEmpty) ++ parts.filter (!·.isEmpty) :=
    List.filter_append [root] parts
  rw [joined, joined, front, front names, single, kept]
  by_cases empty : root = []
  · simp [empty, joinSegments_single]
  · have there : [root].filter (!·.isEmpty) = [root] := by simp [empty]
    rw [there, List.singleton_append, List.singleton_append, joinSegments_cons root some_name,
      joinSegments_cons root (List.cons_ne_nil _ _), joinSegments_single]

end VirtualInstrument.Path
