import VirtualInstrument.Proofs.Expression.Ending
import VirtualInstrument.Proofs.State.Names
/- Equality of lists and maps. They are compared by their texts, so they count as equal when they
   look the same in these. -/
namespace VirtualInstrument

inductive Stored.Compound : Stored → Prop
  | list (items : List Stored) : Compound (.list items)
  | map (address : Address) : Compound (.map address)

namespace Expression
open Document

section Comparing
variable {heap : Heap} {a b : Stored} {d e : Document}

theorem render_compound (compound : a.Compound) (shown : heap.unload? a = some d) :
    render heap (.ofStored a) = .ok d.compact := by
  have text : (Value.ofStored a).render? heap = some d.compact := by
    rw [← toDocument?_ofStored] at shown
    cases compound with
    | list items => exact (congrArg (·.map compact) shown)
    | map address => exact (congrArg (·.map compact) shown)
  rw [render, text]

theorem equal_compound (compound : a.Compound) (compound' : b.Compound)
    (shown : heap.unload? a = some d) (shown' : heap.unload? b = some e) :
    equal heap (.ofStored a) (.ofStored b) = .ok (d.compact == e.compact) := by
  have texts : equal heap (.ofStored a) (.ofStored b) = (do
      .ok ((← render heap (.ofStored a)) == (← render heap (.ofStored b)))) := by
    cases compound with
    | _ =>
      cases compound' with
      | _ => rfl
  rw [texts, render_compound compound shown, render_compound compound' shown']
  rfl

end Comparing

theorem comparison_yields {scope : Scope} {left right : Tree} {sources between last : Sources}
    {a b : Value} (first : evaluate scope left sources = (.ok a, between))
    (second : evaluate scope right between = (.ok b, last)) {op : Comparison} {verdict : Bool}
    (compared : compare scope.heap op a b = .ok verdict) :
    evaluate scope (.comparison left [(op, right)]) sources = (.ok (.boolean verdict), last) := by
  rw [evaluate]
  refine bind_yields_iff.mpr ⟨a, between, first, ?_⟩
  rw [evaluateChain]
  refine bind_yields_iff.mpr ⟨b, last, second, ?_⟩
  refine lift_bind_yields_iff.mpr ⟨verdict, compared, ?_⟩
  cases verdict with
  | true => rfl
  | false => rfl

/-- For lists and maps that do not contain themselves, `a == b` is whether their texts look the
    same. That is whether they are the same value, but for maps that list their names in another
    order and for what is written as null without being null. -/
theorem equality_is_structural_iff {scope : Scope} (sound : scope.heap.Sound)
    (present : 0 < scope.heap.maps.size) (once : scope.heap.Once) {a b : Stored}
    (compound : a.Compound) (compound' : b.Compound) (acyclic : ¬ scope.heap.Endless a)
    (acyclic' : ¬ scope.heap.Endless b) {left right : Tree} {sources between last : Sources}
    (first : evaluate scope left sources = (.ok (.ofStored a), between))
    (second : evaluate scope right between = (.ok (.ofStored b), last)) :
    ∃ d e verdict, scope.heap.unload? a = some d ∧ scope.heap.unload? b = some e ∧
      evaluate scope (.comparison left [(.equal, right)]) sources = (.ok (.boolean verdict), last) ∧
      evaluate scope (.comparison left [(.unequal, right)]) sources =
        (.ok (.boolean !verdict), last) ∧
      (verdict = true ↔ d.shown = e.shown) ∧
      ((verdict = true ↔ Same d e) ↔
        ¬ (Same d e ∧ Reordered d e) ∧ ¬ (d.shown = e.shown ∧ Masked d e)) := by
  obtain ⟨d, shown⟩ := Option.ne_none_iff_exists'.mp fun none =>
    acyclic ((Heap.unload?_eq_none_iff sound present a).mp none)
  obtain ⟨e, shown'⟩ := Option.ne_none_iff_exists'.mp fun none =>
    acyclic' ((Heap.unload?_eq_none_iff sound present b).mp none)
  have verdict := equal_compound compound compound' shown shown'
  have opposite : compare scope.heap .unequal (.ofStored a) (.ofStored b) =
      .ok !(d.compact == e.compact) := by
    rw [compare, verdict]
    rfl
  have looks : (d.compact == e.compact) = true ↔ d.shown = e.shown := by
    rw [beq_iff_eq, compact_eq_iff]
  refine ⟨d, e, _, shown, shown', comparison_yields first second verdict,
    comparison_yields first second opposite, looks, ?_⟩
  rw [looks]
  exact shown_tells_iff (once.document_once ⟨_, shown⟩) (once.document_once ⟨_, shown'⟩)

def scopeOfTwo (a b : Document) : Scope :=
  let store := Store.create .empty [(text "a", a), (text "b", b)]
  ⟨store.heap, store.root, []⟩

theorem scopeOfTwo_sound (a b : Document) : (scopeOfTwo a b).heap.Sound :=
  (Store.create_sound Heap.sound_empty [(text "a", a), (text "b", b)]).heap

theorem scopeOfTwo_once {a b : Document} (one : a.Once) (other : b.Once) :
    (scopeOfTwo a b).heap.Once := by
  have entries : ∀ entry ∈ [(text "a", a), (text "b", b)], entry.2.Once := by
    simpa using ⟨one, other⟩
  have apart : [text "a", text "b"].Nodup := by decide
  have seed : (Document.map [(text "a", a), (text "b", b)]).Once := .map apart entries
  exact Store.once_create Heap.once_empty seed

theorem acyclic_of_unload {heap : Heap} (sound : heap.Sound) (present : 0 < heap.maps.size)
    {a : Stored} {d : Document} (shown : heap.unload? a = some d) : ¬ heap.Endless a := by
  intro endless
  rw [(Heap.unload?_eq_none_iff sound present a).mpr endless] at shown
  cases shown

/-- Two maps with the same names in the same order: `state.a == state.b` is true. -/
theorem maps_in_one_order_are_equal :
    let scope := scopeOfTwo (.map [(text "x", .null), (text "y", .boolean true)])
      (.map [(text "x", .null), (text "y", .boolean true)])
    let a : Tree := .member (.name (text "state")) (text "a")
    let b : Tree := .member (.name (text "state")) (text "b")
    let sources : Sources := ⟨.constant 0.5, .constant 0⟩
    evaluate scope (.comparison a [(.equal, b)]) sources = (.ok (.boolean true), sources) ∧
      evaluate scope (.comparison a [(.unequal, b)]) sources = (.ok (.boolean false), sources) := by
  intro scope a b sources
  have sound : scope.heap.Sound := scopeOfTwo_sound _ _
  have entries : ∀ entry ∈ [(text "x", Document.null), (text "y", .boolean true)],
      entry.2.Once := by
    simpa using ⟨Once.null, Once.boolean true⟩
  have once : scope.heap.Once :=
    scopeOfTwo_once (.map (by decide) entries) (.map (by decide) entries)
  have shown : scope.heap.unload? (.map 0) =
      some (.map [(text "x", .null), (text "y", .boolean true)]) := rfl
  have shown' : scope.heap.unload? (.map 1) =
      some (.map [(text "x", .null), (text "y", .boolean true)]) := rfl
  obtain ⟨d, e, verdict, one, two, equal, unequal, looks, _⟩ :=
    equality_is_structural_iff sound (by decide) once (.map 0) (.map 1)
      (acyclic_of_unload sound (by decide) shown) (acyclic_of_unload sound (by decide) shown')
      (show evaluate scope a sources = (.ok (.ofStored (.map 0)), sources) from rfl)
      (show evaluate scope b sources = (.ok (.ofStored (.map 1)), sources) from rfl)
  obtain rfl : verdict = true := looks.mpr (by
    rw [shown] at one
    rw [shown'] at two
    cases one
    cases two
    rfl)
  exact ⟨equal, unequal⟩

/-- Two maps with the same entries in different orders: `state.a == state.b` is false. -/
theorem maps_in_another_order_are_unequal :
    let first : Document := .map [(text "x", .null), (text "y", .boolean true)]
    let second : Document := .map [(text "y", .boolean true), (text "x", .null)]
    let scope := scopeOfTwo first second
    let a : Tree := .member (.name (text "state")) (text "a")
    let b : Tree := .member (.name (text "state")) (text "b")
    let sources : Sources := ⟨.constant 0.5, .constant 0⟩
    evaluate scope a sources = (.ok (.map 0), sources) ∧
      evaluate scope b sources = (.ok (.map 1), sources) ∧
      scope.heap.unload? (.map 0) = some first ∧ scope.heap.unload? (.map 1) = some second ∧
      Same first second ∧
      evaluate scope (.comparison a [(.equal, b)]) sources = (.ok (.boolean false), sources) ∧
      evaluate scope (.comparison a [(.unequal, b)]) sources = (.ok (.boolean true), sources) := by
  refine ⟨rfl, rfl, rfl, rfl, .map ?_ ?_, rfl, rfl⟩
  · intro name
    simp [Fields.names, or_comm]
  · intro name value other one two
    have listed := Fields.mem_of_get? one
    simp only [List.mem_cons, Prod.mk.injEq, List.not_mem_nil, or_false] at listed
    rcases listed with ⟨rfl, rfl⟩ | ⟨rfl, rfl⟩
    · cases two
      exact .null
    · cases two
      exact .boolean true

end Expression

end VirtualInstrument
