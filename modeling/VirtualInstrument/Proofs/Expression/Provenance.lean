import VirtualInstrument.Expression.Evaluation
import VirtualInstrument.Proofs.Outcomes
import VirtualInstrument.Proofs.State.Memory
/- Where the maps of a value come from. An expression makes no map: every map of its value is one
   that the state leads to. So a set of addresses that holds the top map, and with a map all maps
   in its entries, holds the maps of every value. -/
namespace VirtualInstrument.Expression

variable {property : Address → Prop}

inductive Value.Only (property : Address → Prop) : Value → Prop
  | null : Only property .null
  | boolean (b : Bool) : Only property (.boolean b)
  | number (x : Float) : Only property (.number x)
  | string (t : Text) : Only property (.string t)
  | list {items : List Value} (all : ∀ item ∈ items, Only property item) :
      Only property (.list items)
  | map {address : Address} (holds : property address) : Only property (.map address)
  | group (g : Group) : Only property (.group g)
  | function (f : Function) : Only property (.function f)

theorem Value.Only.each_item {items : List Value} (only : Value.Only property (.list items)) :
    ∀ item ∈ items, item.Only property := by
  cases only with
  | list all => exact all

mutual

theorem ofStored_only {value : Stored} (only : value.Only property) :
    (Value.ofStored value).Only property := by
  cases only with
  | null => exact .null
  | boolean b => exact .boolean b
  | number x => exact .number x
  | string t => exact .string t
  | list all => exact .list (ofStoredItems_only all)
  | map holds => exact .map holds

theorem ofStoredItems_only {items : List Stored} (all : ∀ item ∈ items, item.Only property) :
    ∀ value ∈ Value.ofStoredItems items, value.Only property := by
  cases items with
  | nil => simp [Value.ofStoredItems]
  | cons item rest =>
    obtain ⟨here, later⟩ := List.forall_mem_cons.mp all
    exact List.forall_mem_cons.mpr ⟨ofStored_only here, ofStoredItems_only later⟩

end

mutual

theorem toStored?_only {value : Value} (only : value.Only property) {stored : Stored}
    (found : value.toStored? = some stored) : stored.Only property := by
  cases value with
  | null => cases found; exact .null
  | boolean b => cases found; exact .boolean b
  | number x => cases found; exact .number x
  | string t => cases found; exact .string t
  | list items =>
    obtain ⟨others, all, rfl⟩ := Option.map_eq_some_iff.mp found
    exact .list (toStoredItems?_only only.each_item all)
  | map address =>
    cases found
    cases only with
    | map holds => exact .map holds
  | group g => cases found
  | function f => cases found

theorem toStoredItems?_only {items : List Value} (only : ∀ item ∈ items, item.Only property)
    {others : List Stored} (found : Value.toStoredItems? items = some others) :
    ∀ stored ∈ others, stored.Only property := by
  cases items with
  | nil =>
    cases found
    simp
  | cons item rest =>
    obtain ⟨here, later⟩ := List.forall_mem_cons.mp only
    obtain ⟨first, one, tail⟩ := Option.bind_eq_some_iff.mp found
    obtain ⟨more, all, same⟩ := Option.bind_eq_some_iff.mp tail
    cases same
    exact List.forall_mem_cons.mpr ⟨toStored?_only here one, toStoredItems?_only later all⟩

end

/-- The addresses include the top map, and with a map the maps in its entries. -/
structure Scope.Closed (scope : Scope) (property : Address → Prop) : Prop where
  root : property scope.root
  entries : ∀ address, property address → ∀ entry ∈ scope.heap.fields address,
    entry.2.Only property

theorem member?_only {g : Group} {name : Text} {value : Value} (found : g.member? name = some value) :
    value.Only property := by
  unfold Group.member? at found
  split at found
  · cases found
    exact .number _
  · split at found
    · cases found
      exact .number _
    · obtain ⟨f, _, rfl⟩ := Option.map_eq_some_iff.mp found
      exact .function f

theorem globalName?_only {name : Text} {value : Value} (found : globalName? name = some value) :
    value.Only property := by
  unfold globalName? at found
  split at found
  · cases found
    exact .group _
  · obtain ⟨f, _, rfl⟩ := Option.map_eq_some_iff.mp found
    exact .function f

theorem ofCapture_only (capture : Text) : (Value.ofCapture capture).Only property := by
  unfold Value.ofCapture
  split
  · exact .number _
  · exact .string capture

section Steps
variable {scope : Scope}

theorem resolve_only (closed : scope.Closed property) (name : Text) :
    Returns (resolve scope name) (Value.Only property) := by
  unfold resolve
  split
  · exact returns_ok (.map closed.root)
  · split
    · split
      · exact returns_ok (ofCapture_only _)
      · exact returns_error _
    · split
      · rename_i found
        exact returns_ok (globalName?_only found)
      · exact returns_error _

theorem memberOf_only (closed : scope.Closed property) {object : Value}
    (only : object.Only property) (name : Text) :
    Returns (memberOf scope.heap object name) (Value.Only property) := by
  unfold memberOf
  split
  · split
    · rename_i found
      exact returns_ok (member?_only found)
    · exact returns_error _
  · split
    · rename_i address _ value found
      cases only with
      | map holds =>
        exact returns_ok (ofStored_only (closed.entries address holds _ (Fields.mem_of_get? found)))
    · exact returns_error _
  · exact returns_error _

theorem itemAt_mem {α : Type} (items : List α) (place : Value) :
    Returns (itemAt items place) (· ∈ items) := by
  unfold itemAt
  refine returns_bind (returns_any _) fun x _ => ?_
  split
  · exact returns_error _
  · rename_i n _
    generalize (if n < 0 then (items.length : Int) + n else n) = position
    dsimp only
    split
    · exact returns_error _
    · split
      · rename_i found
        exact returns_ok (List.mem_of_getElem? found)
      · exact returns_error _

theorem indexInto_only (closed : scope.Closed property) {object : Value}
    (only : object.Only property) (place : Value) :
    Returns (indexInto scope.heap object place) (Value.Only property) := by
  unfold indexInto
  split
  · intro value found
    exact only.each_item value (itemAt_mem _ place value found)
  · exact returns_bind (returns_any _) fun u _ => returns_ok (.string _)
  · exact returns_bind (returns_any _) fun name _ => memberOf_only closed only name

theorem add_only (heap : Heap) {a b : Value} (left : a.Only property) (right : b.Only property) :
    Returns (add heap a b) (Value.Only property) := by
  unfold add
  split
  · exact returns_ok (.number _)
  · split
    · refine returns_ok (.list ?_)
      intro item member
      rcases List.mem_append.mp member with first | second
      · exact left.each_item item first
      · exact right.each_item item second
    all_goals first
      | exact returns_error _
      | exact returns_bind (returns_any _) fun _ _ =>
          returns_bind (returns_any _) fun _ _ => returns_ok (.string _)

theorem arithmetic_only (heap : Heap) (op : Arithmetic) {a b : Value} (left : a.Only property)
    (right : b.Only property) : Returns (arithmetic heap op a b) (Value.Only property) := by
  unfold arithmetic
  split
  · exact add_only heap left right
  · exact returns_bind (returns_any _) fun _ _ => returns_bind (returns_any _) fun _ _ =>
      returns_bind (returns_any _) fun _ _ => returns_ok (.number _)

theorem signedValue_only (sign : Sign) (value : Value) :
    Returns (signedValue sign value) (Value.Only property) := by
  cases sign with
  | _ => exact returns_bind (returns_any _) fun _ _ => returns_ok (.number _)

theorem defined_only (f : Function) (x : Float) :
    Returns (defined f x) (Value.Only property) := by
  unfold defined
  split
  · exact returns_error _
  · exact returns_ok (.number x)

theorem lengthOf_only (heap : Heap) (value : Value) :
    Returns (lengthOf heap value) (Value.Only property) := by
  unfold lengthOf
  split
  all_goals first
    | exact returns_error _
    | exact returns_ok (.number _)

theorem applyFixed_only (heap : Heap) (f : Function) (arguments : List Value) :
    Returns (applyFixed heap f arguments) (Value.Only property) := by
  unfold applyFixed
  split
  · refine returns_bind (returns_any _) fun xs _ => ?_
    split
    · exact returns_error _
    · exact returns_ok (.number _)
  · refine returns_bind (returns_any _) fun xs _ => ?_
    split
    · exact returns_error _
    · exact returns_ok (.number _)
  all_goals first
    | exact lengthOf_only heap _
    | exact returns_ok (.boolean _)
    | exact returns_bind (returns_any _) fun _ _ => returns_ok (.number _)
    | exact returns_bind (returns_any _) fun _ _ => returns_ok (.string _)
    | exact returns_bind (returns_any _) fun _ _ => returns_bind (returns_any _) fun _ _ =>
        returns_ok (.number _)
    | exact returns_bind (returns_any _) fun _ _ => returns_bind (returns_any _) fun _ _ =>
        returns_bind (returns_any _) fun _ _ => returns_ok (.number _)
    | skip
  refine returns_bind (returns_any _) fun xs _ => ?_
  split
  · exact defined_only f _
  · exact returns_error _

theorem toList_only {context : Context} {value : Value} (only : value.Only property) :
    Returns (toList context value) fun items => ∀ item ∈ items, item.Only property := by
  cases only with
  | list all => exact returns_ok all
  | _ => exact returns_error _

theorem getD_only {items : List Value} (all : ∀ item ∈ items, item.Only property) (n : Nat) :
    (items.getD n .null).Only property := by
  rw [List.getD_eq_getElem?_getD]
  cases found : items[n]? with
  | none => exact .null
  | some item => exact all item (List.mem_of_getElem? found)

theorem drawItem_only {value : Value} (only : value.Only property) :
    Gives (drawItem value) (Value.Only property) := by
  unfold drawItem
  refine gives_bind (gives_lift (toList_only only)) fun items all => ?_
  split
  · exact gives_throw _
  · exact gives_bind (gives_any _) fun chance _ => gives_pure (getD_only all _)

theorem apply_only (heap : Heap) (f : Function) {arguments : List Value}
    (only : ∀ argument ∈ arguments, argument.Only property) :
    Gives (apply heap f arguments) (Value.Only property) := by
  unfold apply
  split
  · exact gives_throw _
  · split
    · exact gives_bind (gives_any _) fun x _ => gives_pure (.number x)
    · exact gives_bind (gives_any _) fun low _ => gives_bind (gives_any _) fun high _ =>
        gives_bind (gives_any _) fun chance _ => gives_lift (defined_only _ _)
    · refine gives_bind (gives_any _) fun low _ => gives_bind (gives_any _) fun high _ => ?_
      unfold drawWhole
      split
      · exact gives_throw _
      · exact gives_bind (gives_any _) fun chance _ => gives_lift (defined_only _ _)
    · exact drawItem_only (only _ (by simp))
    · refine gives_bind (gives_any _) fun now _ => ?_
      split
      · exact gives_pure (.string _)
      · exact gives_throw _
    · refine gives_bind (gives_any _) fun now _ => ?_
      split
      · exact gives_pure (.number _)
      · exact gives_pure (.number _)
    · exact gives_lift (applyFixed_only heap f arguments)

end Steps

mutual

theorem evaluate_only {scope : Scope} (closed : scope.Closed property) (tree : Tree) :
    Gives (evaluate scope tree) (Value.Only property) := by
  cases tree with
  | literal l =>
    cases l with
    | null => exact gives_pure .null
    | boolean b => exact gives_pure (.boolean b)
    | number x => exact gives_pure (.number x)
    | string t => exact gives_pure (.string t)
  | list items =>
    rw [evaluate]
    exact gives_bind (evaluateAll_only closed items) fun values all => gives_pure (.list all)
  | name name =>
    rw [evaluate]
    exact gives_lift (resolve_only closed name)
  | member object property =>
    rw [evaluate]
    exact gives_bind (evaluate_only closed object) fun value only =>
      gives_lift (memberOf_only closed only property)
  | index object place =>
    rw [evaluate]
    exact gives_bind (evaluate_only closed object) fun value only =>
      gives_bind (gives_any _) fun position _ => gives_lift (indexInto_only closed only position)
  | call callee arguments =>
    rw [evaluate]
    refine gives_bind (gives_any _) fun value _ => ?_
    split
    · exact gives_bind (evaluateAll_only closed arguments) fun values all =>
        apply_only scope.heap _ all
    · exact gives_throw _
  | signed sign operand =>
    rw [evaluate]
    exact gives_bind (gives_any _) fun value _ => gives_lift (signedValue_only sign value)
  | negation operand =>
    rw [evaluate]
    exact gives_bind (gives_any _) fun value _ => gives_pure (.boolean _)
  | arithmetic op left right =>
    rw [evaluate]
    exact gives_bind (evaluate_only closed left) fun a first =>
      gives_bind (evaluate_only closed right) fun b second =>
        gives_lift (arithmetic_only scope.heap op first second)
  | comparison first rest =>
    rw [evaluate]
    exact gives_bind (gives_any _) fun value _ => evaluateChain_only scope value rest
  | conjunction left right =>
    rw [evaluate]
    refine gives_bind (evaluate_only closed left) fun value only => ?_
    split
    · exact evaluate_only closed right
    · exact gives_pure only
  | disjunction left right =>
    rw [evaluate]
    refine gives_bind (evaluate_only closed left) fun value only => ?_
    split
    · exact gives_pure only
    · exact evaluate_only closed right
  | conditional test consequent alternate =>
    rw [evaluate]
    refine gives_bind (gives_any _) fun value _ => ?_
    split
    · exact evaluate_only closed consequent
    · exact evaluate_only closed alternate

theorem evaluateAll_only {scope : Scope} (closed : scope.Closed property) (trees : List Tree) :
    Gives (evaluateAll scope trees) fun values => ∀ value ∈ values, value.Only property := by
  cases trees with
  | nil =>
    rw [evaluateAll]
    exact gives_pure (by simp)
  | cons tree rest =>
    rw [evaluateAll]
    exact gives_bind (evaluate_only closed tree) fun value only =>
      gives_bind (evaluateAll_only closed rest) fun values all =>
        gives_pure (List.forall_mem_cons.mpr ⟨only, all⟩)

theorem evaluateChain_only (scope : Scope) (left : Value) (rest : List (Comparison × Tree)) :
    Gives (evaluateChain scope left rest) (Value.Only property) := by
  cases rest with
  | nil =>
    rw [evaluateChain]
    exact gives_pure (.boolean true)
  | cons link rest =>
    obtain ⟨op, operand⟩ := link
    rw [evaluateChain]
    refine gives_bind (gives_any _) fun right _ => gives_bind (gives_any _) fun holds _ => ?_
    split
    · exact evaluateChain_only scope right rest
    · exact gives_pure (.boolean false)

end

/-- The maps of a value that an expression yields are maps that the state leads to. -/
theorem value_only {scope : Scope} (closed : scope.Closed property) (expression : Expression)
    (sources : Sources) :
    Returns (expression.value scope sources).1 (Value.Only property) := by
  intro value found
  exact evaluate_only closed expression.tree sources value (ok_of_mapError found)

end VirtualInstrument.Expression
