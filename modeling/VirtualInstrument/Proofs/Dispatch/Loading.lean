import VirtualInstrument.Proofs.Dispatch.Declared
import VirtualInstrument.Proofs.State.Sharing
/- Loading a dispatch table. Every entry is as it was declared, except that a literal is a value in
   memory, and this value shows what was declared. -/
namespace VirtualInstrument.Dispatch

inductive Source.Loaded (heap : Heap) : Source Document → Source Stored → Prop
  | literal {document : Document} {value : Stored} (holds : heap.Holds value)
      (displays : heap.Shows value document) : Loaded heap (.literal document) (.literal value)
  | template (t : Text) : Loaded heap (.template t) (.template t)
  | dynamic (expression : Expression) : Loaded heap (.dynamic expression) (.dynamic expression)

def LoadedAll (heap : Heap) (declared : List (Text × Source Document))
    (stored : List (Text × Source Stored)) : Prop :=
  List.Forall₂ (fun a b => a.1 = b.1 ∧ a.2.Loaded heap b.2) declared stored

structure Actions.Loaded (heap : Heap) (declared : Actions Document) (stored : Actions Stored) :
    Prop where
  set : LoadedAll heap declared.set stored.set
  inc : LoadedAll heap declared.inc stored.inc
  dec : LoadedAll heap declared.dec stored.dec

inductive Entry.Loaded (heap : Heap) : Entry Document → Entry Stored → Prop
  | literal (t : Text) : Loaded heap (.literal t) (.literal t)
  | template (t : Text) : Loaded heap (.template t) (.template t)
  | dynamic (expression : Expression) : Loaded heap (.dynamic expression) (.dynamic expression)
  | actions {declared : Actions Document} {stored : Actions Stored}
      (changes : declared.Loaded heap stored) : Loaded heap (.actions declared) (.actions stored)

structure Rule.Loaded (heap : Heap) (declared : Rule Document) (stored : Rule Stored) : Prop where
  key : stored.key = declared.key
  matcher : stored.matcher = declared.matcher
  entry : declared.entry.Loaded heap stored.entry

structure Table.Loaded (heap : Heap) (declared : Table Document) (stored : Table Stored) :
    Prop where
  exact' : List.Forall₂ (fun a b => a.1 = b.1 ∧ a.2.Loaded heap b.2) declared.exact stored.exact
  patterns : List.Forall₂ (Rule.Loaded heap) declared.patterns stored.patterns

section Growth
variable {heap next : Heap} (extended : Heap.Extends heap next) (sound : heap.Sound)
include extended sound

theorem Source.Loaded.grow {declared : Source Document} {stored : Source Stored}
    (loaded : declared.Loaded heap stored) : declared.Loaded next stored := by
  cases loaded with
  | literal holds displays =>
    exact .literal (holds.grow extended.grows) ((extended.agrees sound holds).shows displays)
  | template t => exact .template t
  | dynamic expression => exact .dynamic expression

theorem LoadedAll.grow {declared : List (Text × Source Document)}
    {stored : List (Text × Source Stored)} (loaded : LoadedAll heap declared stored) :
    LoadedAll next declared stored :=
  List.Forall₂.imp (fun _ _ both => ⟨both.1, both.2.grow extended sound⟩) loaded

theorem Entry.Loaded.grow {declared : Entry Document} {stored : Entry Stored}
    (loaded : declared.Loaded heap stored) : declared.Loaded next stored := by
  cases loaded with
  | literal t => exact .literal t
  | template t => exact .template t
  | dynamic expression => exact .dynamic expression
  | actions changes =>
    exact .actions ⟨changes.set.grow extended sound, changes.inc.grow extended sound,
      changes.dec.grow extended sound⟩

end Growth

theorem source_loads {heap : Heap} (sound : heap.Sound) (source : Source Document) :
    Heap.Extends heap (source.load heap).1 ∧
      source.Loaded (source.load heap).1 (source.load heap).2 := by
  cases source with
  | literal document =>
    obtain ⟨extended, holds⟩ := Heap.load_extends heap document
    exact ⟨extended, .literal holds (Heap.load_shows sound document)⟩
  | template t => exact ⟨.refl heap, .template t⟩
  | dynamic expression => exact ⟨.refl heap, .dynamic expression⟩

theorem assignments_load {heap : Heap} (sound : heap.Sound)
    (declared : List (Text × Source Document)) :
    Heap.Extends heap (loadAssignments heap declared).1 ∧
      LoadedAll (loadAssignments heap declared).1 declared (loadAssignments heap declared).2 := by
  induction declared generalizing heap with
  | nil => exact ⟨.refl heap, .nil⟩
  | cons assignment rest ih =>
    obtain ⟨key, source⟩ := assignment
    obtain ⟨first, loaded⟩ := source_loads sound source
    obtain ⟨later, others⟩ := ih (first.sound sound)
    rw [loadAssignments]
    exact ⟨first.trans later, .cons ⟨rfl, loaded.grow later (first.sound sound)⟩ others⟩

theorem actions_load {heap : Heap} (sound : heap.Sound) (declared : Actions Document) :
    Heap.Extends heap (declared.load heap).1 ∧
      declared.Loaded (declared.load heap).1 (declared.load heap).2 := by
  obtain ⟨toSet, set⟩ := assignments_load sound declared.set
  have setSound := toSet.sound sound
  obtain ⟨toInc, inc⟩ := assignments_load setSound declared.inc
  have incSound := toInc.sound setSound
  obtain ⟨toDec, dec⟩ := assignments_load incSound declared.dec
  have decSound := toDec.sound incSound
  have changes := toSet.trans (toInc.trans toDec)
  have setLater := set.grow (toInc.trans toDec) setSound
  have incLater := inc.grow toDec incSound
  unfold Actions.load
  dsimp only
  split
  · rename_i source _
    obtain ⟨more, _⟩ := source_loads decSound source
    exact ⟨changes.trans more, setLater.grow more decSound, incLater.grow more decSound,
      dec.grow more decSound⟩
  · exact ⟨changes, setLater, incLater, dec⟩

theorem entry_loads {heap : Heap} (sound : heap.Sound) (declared : Entry Document) :
    Heap.Extends heap (declared.load heap).1 ∧
      declared.Loaded (declared.load heap).1 (declared.load heap).2 := by
  cases declared with
  | literal t => exact ⟨.refl heap, .literal t⟩
  | template t => exact ⟨.refl heap, .template t⟩
  | dynamic expression => exact ⟨.refl heap, .dynamic expression⟩
  | actions actions =>
    obtain ⟨extended, loaded⟩ := actions_load sound actions
    exact ⟨extended, .actions loaded⟩

theorem exact_loads {heap : Heap} (sound : heap.Sound) (declared : Fields (Entry Document)) :
    Heap.Extends heap (Table.loadExact heap declared).1 ∧
      List.Forall₂ (fun a b => a.1 = b.1 ∧ a.2.Loaded (Table.loadExact heap declared).1 b.2)
        declared (Table.loadExact heap declared).2 := by
  induction declared generalizing heap with
  | nil => exact ⟨.refl heap, .nil⟩
  | cons listed rest ih =>
    obtain ⟨key, entry⟩ := listed
    obtain ⟨first, loaded⟩ := entry_loads sound entry
    obtain ⟨later, others⟩ := ih (first.sound sound)
    rw [Table.loadExact]
    exact ⟨first.trans later, .cons ⟨rfl, loaded.grow later (first.sound sound)⟩ others⟩

theorem patterns_load {heap : Heap} (sound : heap.Sound) (declared : List (Rule Document)) :
    Heap.Extends heap (Table.loadPatterns heap declared).1 ∧
      List.Forall₂ (Rule.Loaded (Table.loadPatterns heap declared).1) declared
        (Table.loadPatterns heap declared).2 := by
  induction declared generalizing heap with
  | nil => exact ⟨.refl heap, .nil⟩
  | cons rule rest ih =>
    obtain ⟨first, loaded⟩ := entry_loads sound rule.entry
    obtain ⟨later, others⟩ := ih (first.sound sound)
    rw [Table.loadPatterns]
    exact ⟨first.trans later, .cons ⟨rfl, rfl, loaded.grow later (first.sound sound)⟩ others⟩

theorem table_loads {heap : Heap} (sound : heap.Sound) (declared : Table Document) :
    Heap.Extends heap (declared.load heap).1 ∧
      declared.Loaded (declared.load heap).1 (declared.load heap).2 := by
  obtain ⟨first, exact'⟩ := exact_loads sound declared.exact
  obtain ⟨later, patterns⟩ := patterns_load (first.sound sound) declared.patterns
  refine ⟨first.trans later, ?_, patterns⟩
  exact exact'.imp fun _ _ both => ⟨both.1, both.2.grow later (first.sound sound)⟩

theorem exact_corresponds {heap : Heap} {declared : Fields (Entry Document)}
    {stored : Fields (Entry Stored)}
    (loaded : List.Forall₂ (fun a b => a.1 = b.1 ∧ a.2.Loaded heap b.2) declared stored)
    (key : Text) :
    (declared.get? key = none ∧ stored.get? key = none) ∨ ∃ entry entry',
      declared.get? key = some entry ∧ stored.get? key = some entry' ∧ entry.Loaded heap entry' := by
  induction loaded with
  | nil => exact .inl ⟨rfl, rfl⟩
  | @cons a b _ _ both _ ih =>
    rw [Fields.get?, Fields.get?, ← both.1]
    split
    · exact .inr ⟨a.2, b.2, rfl, rfl, both.2⟩
    · exact ih

theorem patterns_correspond {heap : Heap} {declared : List (Rule Document)}
    {stored : List (Rule Stored)} (loaded : List.Forall₂ (Rule.Loaded heap) declared stored)
    {command : Text} {found : Match Document} (first : firstMatch? command declared = some found) :
    ∃ entry, firstMatch? command stored = some ⟨found.key, entry, found.captures⟩ ∧
      found.entry.Loaded heap entry := by
  induction loaded with
  | nil => cases first
  | cons both _ ih =>
    rw [firstMatch?] at first ⊢
    rw [both.matcher]
    split at first
    · cases first
      exact ⟨_, by rw [both.key], both.entry⟩
    · exact ih first

theorem Table.Loaded.stored_match {heap : Heap} {declared : Table Document} {stored : Table Stored}
    (loaded : declared.Loaded heap stored) {command : Text} {found : Match Document}
    (matched : declared.match? command = some found) :
    ∃ entry, stored.match? command = some ⟨found.key, entry, found.captures⟩ ∧
      found.entry.Loaded heap entry := by
  unfold Table.match? at matched ⊢
  dsimp only at matched ⊢
  rcases exact_corresponds loaded.exact' (Text.upper (Text.trim command)) with
    ⟨none, none'⟩ | ⟨entry, entry', first, second, both⟩
  · rw [none] at matched
    rw [none']
    exact patterns_correspond loaded.patterns matched
  · rw [first] at matched
    cases matched
    rw [second]
    exact ⟨entry', rfl, both⟩

def Source.Held (heap : Heap) (source : Source Stored) : Prop :=
  ∀ value, source = .literal value → heap.Holds value

def HeldAll (heap : Heap) (list : List (Text × Source Stored)) : Prop :=
  ∀ assignment ∈ list, assignment.2.Held heap

structure Actions.Held (heap : Heap) (actions : Actions Stored) : Prop where
  set : HeldAll heap actions.set
  inc : HeldAll heap actions.inc
  dec : HeldAll heap actions.dec

def Entry.Held (heap : Heap) (entry : Entry Stored) : Prop :=
  ∀ actions, entry = .actions actions → actions.Held heap

theorem HeldAll.grow {heap next : Heap} {list : List (Text × Source Stored)}
    (held : HeldAll heap list) (grows : heap.maps.size ≤ next.maps.size) : HeldAll next list :=
  fun assignment member value same => (held assignment member value same).grow grows

theorem Entry.Held.grow {heap next : Heap} {entry : Entry Stored} (held : entry.Held heap)
    (grows : heap.maps.size ≤ next.maps.size) : entry.Held next := by
  intro actions same
  obtain ⟨set, inc, dec⟩ := held actions same
  exact ⟨set.grow grows, inc.grow grows, dec.grow grows⟩

theorem Source.Loaded.held {heap : Heap} {declared : Source Document} {stored : Source Stored}
    (loaded : declared.Loaded heap stored) : stored.Held heap := by
  intro value same
  subst same
  cases loaded with
  | literal holds _ => exact holds

theorem LoadedAll.held {heap : Heap} {declared : List (Text × Source Document)}
    {stored : List (Text × Source Stored)} (loaded : LoadedAll heap declared stored) :
    HeldAll heap stored :=
  forall_right loaded fun _ _ both => both.2.held

theorem Entry.Loaded.held {heap : Heap} {declared : Entry Document} {stored : Entry Stored}
    (loaded : declared.Loaded heap stored) : stored.Held heap := by
  intro actions same
  subst same
  cases loaded with
  | actions changes => exact ⟨changes.set.held, changes.inc.held, changes.dec.held⟩

theorem Table.Loaded.held {heap : Heap} {declared : Table Document} {stored : Table Stored}
    (loaded : declared.Loaded heap stored) : stored.Each (Entry.Held heap) :=
  ⟨forall_right loaded.exact' fun _ _ both => both.2.held,
    forall_right loaded.patterns fun _ _ both => both.entry.held⟩

def Entry.Sets (meets : Stored → Prop) (entry : Entry Stored) : Prop :=
  ∀ actions, entry = .actions actions → ∀ assignment ∈ actions.set, ∀ value,
    assignment.2 = .literal value → meets value

section Steps
variable {fits : Document → Prop} {kept : Heap → Prop} {meets : Stored → Prop}
  (step : ∀ heap document, fits document → kept heap →
    kept (heap.load document).1 ∧ meets (heap.load document).2)
include step

theorem source_keeps {heap : Heap} (start : kept heap) {source : Source Document}
    (declared : source.Fits fits) :
    kept (source.load heap).1 ∧ ∀ value, (source.load heap).2 = .literal value → meets value := by
  cases source with
  | literal document =>
    obtain ⟨done, met⟩ := step heap document (declared document rfl) start
    refine ⟨done, fun value same => ?_⟩
    cases same
    exact met
  | template t => exact ⟨start, fun value same => nomatch same⟩
  | dynamic expression => exact ⟨start, fun value same => nomatch same⟩

theorem assignments_keep {heap : Heap} (start : kept heap)
    {list : List (Text × Source Document)} (declared : ∀ assignment ∈ list, assignment.2.Fits fits) :
    kept (loadAssignments heap list).1 ∧
      ∀ assignment ∈ (loadAssignments heap list).2, ∀ value,
        assignment.2 = .literal value → meets value := by
  induction list generalizing heap with
  | nil => exact ⟨start, by simp [loadAssignments]⟩
  | cons assignment rest ih =>
    obtain ⟨key, source⟩ := assignment
    obtain ⟨here, later⟩ := List.forall_mem_cons.mp declared
    obtain ⟨once, met⟩ := source_keeps step start here
    obtain ⟨all, others⟩ := ih once later
    rw [loadAssignments]
    exact ⟨all, List.forall_mem_cons.mpr ⟨met, others⟩⟩

/-- An entry is put into memory by loading documents, one after the other. -/
theorem entry_keeps {heap : Heap} (start : kept heap) {entry : Entry Document}
    (declared : entry.Fits fits) :
    kept (entry.load heap).1 ∧ (entry.load heap).2.Sets meets := by
  cases entry with
  | actions actions =>
    obtain ⟨set, inc, dec, response⟩ := declared actions rfl
    obtain ⟨one, met⟩ := assignments_keep step start set
    obtain ⟨two, _⟩ := assignments_keep step one inc
    obtain ⟨three, _⟩ := assignments_keep step two dec
    have last : kept (actions.load heap).1 ∧ (actions.load heap).2.set =
        (loadAssignments heap actions.set).2 := by
      unfold Actions.load
      dsimp only
      split
      · rename_i source given
        exact ⟨(source_keeps step three (response source given)).1, rfl⟩
      · exact ⟨three, rfl⟩
    refine ⟨last.1, ?_⟩
    intro stored same assignment member
    have whole : (actions.load heap).2 = stored := Entry.actions.inj same
    rw [← whole, last.2] at member
    exact met assignment member
  | _ => exact ⟨start, fun actions same => nomatch same⟩

theorem exact_keeps {heap : Heap} (start : kept heap) {list : Fields (Entry Document)}
    (declared : ∀ listed ∈ list, listed.2.Fits fits) : kept (Table.loadExact heap list).1 := by
  induction list generalizing heap with
  | nil => exact start
  | cons listed rest ih =>
    obtain ⟨key, entry⟩ := listed
    obtain ⟨here, later⟩ := List.forall_mem_cons.mp declared
    exact ih (entry_keeps step start here).1 later

theorem patterns_keep {heap : Heap} (start : kept heap) {rules : List (Rule Document)}
    (declared : ∀ rule ∈ rules, rule.entry.Fits fits) : kept (Table.loadPatterns heap rules).1 := by
  induction rules generalizing heap with
  | nil => exact start
  | cons rule rest ih =>
    obtain ⟨here, later⟩ := List.forall_mem_cons.mp declared
    exact ih (entry_keeps step start here).1 later

theorem table_keeps {heap : Heap} (start : kept heap) {table : Table Document}
    (declared : table.Each (Entry.Fits fits)) : kept (table.load heap).1 :=
  patterns_keep step (exact_keeps step start declared.exact') declared.patterns

end Steps

end VirtualInstrument.Dispatch
