import VirtualInstrument.Proofs.Document.Overlay
import VirtualInstrument.Proofs.State.Region
/- Laying one map of the memory over another. The entries of the base are copied to a new map, and
   only maps that are new are written to: both maps, and whatever they share, stay as they are, and the
   new map shows the one document laid over the other. -/
namespace VirtualInstrument.Heap

section Overlaying
variable (join : Heap → Address → Address → Heap × Address)

def layValue (heap : Heap) (existing : Option Stored) (value : Stored) : Heap × Stored :=
  match existing, value with
  | some (.map base), .map above =>
    let (joined, address) := join heap base above
    (joined, .map address)
  | some (.list below), .list items => (heap, .list (items ++ below))
  | _, _ => (heap, value)

def layEntries (heap : Heap) (out : Address) : List (Text × Stored) → Heap
  | [] => heap
  | (name, value) :: rest =>
    if name = Fields.reservedName ∧ (heap.fields out).has name = false then
      layEntries heap out rest
    else
      let (joined, held) := layValue join heap ((heap.fields out).get? name) value
      layEntries (Store.assign joined out name held) out rest

/-- A new map with the entries of one map laid over those of another, where the maps in the first one
    nest at most `depth` deep. -/
def layOver : Nat → Heap → Address → Address → Heap × Address
  | 0, heap, base, _ => (heap, base)
  | depth + 1, heap, base, above =>
    let (grown, out) := heap.allocate (heap.fields base)
    (layEntries (layOver depth) grown out (heap.fields above), out)

end Overlaying

section Shown
variable {ofMap : Address → Option Document} {heap : Heap}

theorem unloadItems_iff {items : List Stored} {documents : List Document} :
    unloadItems ofMap items = some documents ↔
      List.Forall₂ (fun item document => unloadWith ofMap item = some document)
        items documents := by
  induction items generalizing documents with
  | nil =>
    rw [List.forall₂_nil_left_iff, unloadItems, Option.some.injEq]
    exact eq_comm
  | cons item rest ih =>
    rw [unloadItems_cons_iff, List.forall₂_cons_left_iff]
    simp only [ih, exists_and_left]

theorem unloadFields_iff {fields : Fields Stored} {documents : Fields Document} :
    unloadFields ofMap fields = some documents ↔
      Fields.Related (fun value document => unloadWith ofMap value = some document)
        fields documents := by
  induction fields generalizing documents with
  | nil =>
    rw [Fields.Related, List.forall₂_nil_left_iff, unloadFields, Option.some.injEq]
    exact eq_comm
  | cons entry rest ih =>
    rw [unloadFields_cons_iff, Fields.Related, List.forall₂_cons_left_iff]
    constructor
    · rintro ⟨document, others, first, more, rfl⟩
      exact ⟨(entry.1, document), others, ⟨rfl, first⟩, ih.mp more, rfl⟩
    · rintro ⟨⟨name, document⟩, others, ⟨rfl, first⟩, more, rfl⟩
      exact ⟨document, others, first, ih.mpr more, rfl⟩

/-- What is shown item by item is shown at one depth. -/
theorem common_depth {α β : Type} (shown : Nat → α → β → Prop)
    (deeper : ∀ {n m a b}, n ≤ m → shown n a b → shown m a b) {all : List α} {others : List β}
    (each : List.Forall₂ (fun a b => ∃ depth, shown depth a b) all others) :
    ∃ depth, List.Forall₂ (shown depth) all others := by
  induction each with
  | nil => exact ⟨0, .nil⟩
  | cons first _ ih =>
    obtain ⟨n, here⟩ := first
    obtain ⟨m, later⟩ := ih
    exact ⟨max n m, .cons (deeper (Nat.le_max_left n m) here)
      (later.imp fun _ _ => deeper (Nat.le_max_right n m))⟩

theorem shows_list_iff {items : List Stored} {document : Document} :
    heap.Shows (.list items) document ↔
      ∃ documents, document = .list documents ∧ List.Forall₂ heap.Shows items documents := by
  constructor
  · rintro ⟨depth, shown⟩
    obtain ⟨documents, all, rfl⟩ := Option.map_eq_some_iff.mp shown
    exact ⟨documents, rfl, (unloadItems_iff.mp all).imp fun _ _ here => ⟨depth, here⟩⟩
  · rintro ⟨documents, rfl, each⟩
    obtain ⟨depth, all⟩ := common_depth
      (fun depth item document => unloadWith (heap.unloadMap depth) item = some document)
      (fun le here => unloadWith_deeper le here) each
    refine ⟨depth, ?_⟩
    rw [unloadWith, unloadItems_iff.mpr all]
    rfl

theorem shows_map_iff {address : Address} {document : Document} :
    heap.Shows (.map address) document ↔ ∃ fields, document = .map fields ∧
      Fields.Related heap.Shows (heap.fields address) fields := by
  constructor
  · rintro ⟨depth, shown⟩
    cases depth with
    | zero => cases shown
    | succ depth =>
      obtain ⟨fields, all, rfl⟩ := unloadMap_succ_iff.mp shown
      exact ⟨fields, rfl, (unloadFields_iff.mp all).imp fun _ _ here => ⟨here.1, depth, here.2⟩⟩
  · rintro ⟨fields, rfl, each⟩
    obtain ⟨depth, all⟩ := common_depth
      (fun depth (entry : Text × Stored) (other : Text × Document) =>
        entry.1 = other.1 ∧ unloadWith (heap.unloadMap depth) entry.2 = some other.2)
      (fun le here => ⟨here.1, unloadWith_deeper le here.2⟩)
      (each.imp fun _ _ here => here.2.imp fun _ shown => ⟨here.1, shown⟩)
    exact ⟨depth + 1, unloadMap_succ_iff.mpr ⟨fields, unloadFields_iff.mpr all, rfl⟩⟩

theorem shape_of_shows {value : Stored} {document : Document} (shows : heap.Shows value document) :
    ((∃ fields, document = .map fields) → ∃ address, value = .map address) ∧
      ((∃ documents, document = .list documents) → ∃ items, value = .list items) := by
  obtain ⟨depth, shown⟩ := shows
  cases value with
  | map address =>
    obtain ⟨fields, rfl, -⟩ := shows_map_iff.mp ⟨depth, shown⟩
    simp
  | list items =>
    obtain ⟨documents, rfl, -⟩ := shows_list_iff.mp ⟨depth, shown⟩
    simp
  | _ =>
    cases shown
    simp

end Shown

section Confined
variable {join : Heap → Address → Address → Heap × Address} {within : Address → Prop}

def JoinsWithin (join : Heap → Address → Address → Heap × Address) (within : Address → Prop) :
    Prop :=
  ∀ {heap : Heap} {base above : Address}, heap.Region within → within base → within above →
    Confined within heap (join heap base above).1 ∧ within (join heap base above).2

theorem layValue_confined (joins : JoinsWithin join within) {heap : Heap}
    (region : heap.Region within) {existing : Option Stored} {value : Stored}
    (below : ∀ held ∈ existing, held.Only within) (only : value.Only within) :
    Confined within heap (layValue join heap existing value).1 ∧
      (layValue join heap existing value).2.Only within := by
  unfold layValue
  split
  · rename_i base above
    cases only with
    | map upper =>
      cases below _ rfl with
      | map lower =>
        obtain ⟨confined, inside⟩ := joins region lower upper
        exact ⟨confined, .map inside⟩
  · rename_i under items
    cases only with
    | list top =>
      cases below _ rfl with
      | list held =>
        refine ⟨region.confined, .list fun item member => ?_⟩
        rcases List.mem_append.mp member with first | second
        · exact top item first
        · exact held item second
  · exact ⟨region.confined, only⟩

theorem layEntries_confined (joins : JoinsWithin join within) {heap : Heap}
    (region : heap.Region within) {out : Address} (inside : within out)
    {entries : List (Text × Stored)} (only : ∀ entry ∈ entries, entry.2.Only within) :
    Confined within heap (layEntries join heap out entries) := by
  induction entries generalizing heap with
  | nil => exact region.confined
  | cons entry rest ih =>
    obtain ⟨name, value⟩ := entry
    obtain ⟨first, others⟩ := List.forall_mem_cons.mp only
    rw [layEntries]
    split
    · exact ih region others
    · have under : ∀ held ∈ (heap.fields out).get? name, held.Only within :=
        fun held found => region.entries out inside _ (Fields.mem_of_get? found)
      obtain ⟨joined, held⟩ := layValue_confined joins region under first
      have set := Store.assign_confined joined.region inside name held
      exact (joined.trans set).trans (ih set.region others)

theorem layOver_within (depth : Nat) : JoinsWithin (layOver depth) within := by
  induction depth with
  | zero => exact fun region lower _ => ⟨region.confined, lower⟩
  | succ depth ih =>
    intro heap base above region lower upper
    have copied := region.allocate (region.entries base lower)
    have new : within heap.maps.size := region.new _ (Nat.le_refl _)
    exact ⟨copied.trans (layEntries_confined ih copied.region new (region.entries above upper)),
      new⟩

end Confined

section Laid
variable {join : Heap → Address → Address → Heap × Address} {depth : Nat}

/-- What two maps are joined to: a map that shows the one document laid over the other, in a memory
    where everything old is as it was. -/
def Lays (join : Heap → Address → Address → Heap × Address) (depth : Nat) : Prop :=
  ∀ {heap : Heap} {base above : Address} {below top : Fields Document}, heap.Sound →
    heap.Holds (.map base) → heap.Holds (.map above) → heap.Shows (.map base) (.map below) →
      heap.unloadMap depth above = some (.map top) →
        heap.Extends (join heap base above).1 ∧
        (join heap base above).1.Holds (.map (join heap base above).2) ∧
        (join heap base above).1.Shows (.map (join heap base above).2)
          (.map (Document.overlayFields below top))

theorem layValue_shows (lays : Lays join depth) {heap : Heap} (sound : heap.Sound)
    {existing : Option Stored} {value : Stored} {old : Option Document} {document : Document}
    (under : ∀ held ∈ existing, heap.Holds held) (holds : heap.Holds value)
    (shows : Option.Rel heap.Shows existing old)
    (shown : unloadWith (heap.unloadMap depth) value = some document) :
    heap.Extends (layValue join heap existing value).1 ∧
      (layValue join heap existing value).1.Holds (layValue join heap existing value).2 ∧
      (layValue join heap existing value).1.Shows (layValue join heap existing value).2
        (Document.overlayValue old document) := by
  unfold layValue
  split
  · rename_i base above
    obtain ⟨top, rfl, -⟩ := shows_map_iff.mp ⟨depth, shown⟩
    cases shows with
    | some first =>
      obtain ⟨below, rfl, -⟩ := shows_map_iff.mp first
      exact lays sound (under _ rfl) holds first shown
  · rename_i held items
    obtain ⟨top, rfl, above⟩ := shows_list_iff.mp ⟨depth, shown⟩
    cases shows with
    | some first =>
      obtain ⟨below, rfl, behind⟩ := shows_list_iff.mp first
      refine ⟨.refl heap, .list fun item member => ?_, ?_⟩
      · rcases List.mem_append.mp member with new | before
        · cases holds with | list all => exact all item new
        · cases under _ rfl with | list all => exact all item before
      · exact shows_list_iff.mpr ⟨top ++ below, rfl, List.rel_append above behind⟩
  · rename_i no_maps no_lists
    have alone : Document.overlayValue old document = document := by
      apply Document.overlayValue_alone
      · rintro items others rfl rfl
        cases shows with
        | some first =>
          obtain ⟨held, rfl⟩ := (shape_of_shows first).2 ⟨items, rfl⟩
          obtain ⟨top, rfl⟩ := (shape_of_shows ⟨depth, shown⟩).2 ⟨others, rfl⟩
          exact no_lists held top rfl rfl
      · rintro fields others rfl rfl
        cases shows with
        | some first =>
          obtain ⟨base, rfl⟩ := (shape_of_shows first).1 ⟨fields, rfl⟩
          obtain ⟨above, rfl⟩ := (shape_of_shows ⟨depth, shown⟩).1 ⟨others, rfl⟩
          exact no_maps base above rfl rfl
    rw [alone]
    exact ⟨.refl heap, holds, depth, shown⟩

/-- A memory in which entries are being set in a new map: no map refers to that one, everything older
    is as it was, and the new map shows what is done so far. -/
structure Laying (heap now : Heap) (out : Address) (done : Fields Document) : Prop where
  sound : now.Sound
  new : heap.maps.size ≤ out
  present : out < now.maps.size
  old : ∀ address, address < heap.maps.size → now.fields address = heap.fields address
  region : now.Region (· ≠ out)
  apart : ∀ entry ∈ now.fields out, entry.2.Only (· ≠ out)
  shows : Fields.Related now.Shows (now.fields out) done

theorem shows_of_write {heap : Heap} {out : Address} (region : heap.Region (· ≠ out))
    (entries : Fields Stored) {value : Stored} (only : value.Only (· ≠ out))
    {document : Document} (shows : heap.Shows value document) :
    (heap.write out entries).Shows value document := by
  refine Agrees.shows (fun address reaches => ?_) shows
  exact fields_write_other heap entries (Ne.symm (region.within_of_reaches only reaches))

section Entries
variable {heap now : Heap} {out : Address} {done : Fields Document}

theorem Laying.start (sound : heap.Sound) {base : Address} (holds : heap.Holds (.map base))
    (shows : heap.Shows (.map base) (.map done)) :
    Laying heap (heap.allocate (heap.fields base)).1 heap.maps.size done := by
  have grows : heap.maps.size < (heap.allocate (heap.fields base)).1.maps.size := by
    rw [size_allocate]
    exact Nat.lt_succ_self _
  have copied := fields_allocate_new heap (heap.fields base)
  have extended := extends_allocate (sound base)
  have others (address : Address) (entry : Text × Stored) (member : entry ∈ heap.fields address) :
      entry.2.Only (· ≠ heap.maps.size) :=
    (sound address entry member).mono fun _ => Nat.ne_of_lt
  refine ⟨extended.sound sound, Nat.le_refl _, grows, extended.old, ⟨?_, ?_⟩, ?_, ?_⟩
  · intro address outside
    exact Nat.ne_of_gt (Nat.lt_of_lt_of_le grows outside)
  · intro address apart entry member
    rw [fields_allocate_old heap _ apart] at member
    exact others address entry member
  · intro entry member
    rw [copied] at member
    exact others base entry member
  · obtain ⟨fields, same, each⟩ := shows_map_iff.mp ((extended.agrees sound holds).shows shows)
    cases same
    cases holds with
    | map inside =>
      rw [extended.old base inside] at each
      rw [copied]
      exact each

theorem Laying.set (laying : Laying heap now out done) {joined : Heap} {held : Stored}
    {document : Document} (name : Text) (extended : now.Extends joined)
    (confined : Confined (· ≠ out) now joined) (holds : joined.Holds held)
    (only : held.Only (· ≠ out)) (shows : joined.Shows held document) :
    Laying heap (Store.assign joined out name held) out (done.set name document) := by
  obtain ⟨sound, size⟩ := Store.assign_sound (extended.sound laying.sound) holds out name
  have there : out < joined.maps.size := Nat.lt_of_lt_of_le laying.present extended.grows
  have before : joined.fields out = now.fields out := extended.old out laying.present
  have after : (Store.assign joined out name held).fields out = (now.fields out).set name held := by
    rw [Store.assign, fields_write_same joined _ there, before]
  refine ⟨sound, laying.new, size ▸ there, ?_, ⟨?_, ?_⟩, ?_, ?_⟩
  · intro address inside
    have apart : address < out := Nat.lt_of_lt_of_le inside laying.new
    rw [Store.assign, fields_write_other joined _ (Nat.ne_of_gt apart),
      extended.old address (Nat.lt_trans apart laying.present), laying.old address inside]
  · rw [size]
    exact confined.region.new
  · intro address apart entry member
    rw [Store.assign, fields_write_other joined _ (Ne.symm apart)] at member
    exact confined.region.entries address apart entry member
  · intro entry member
    rw [after] at member
    rcases Fields.mem_set member with rfl | old
    · exact only
    · exact laying.apart entry old
  · rw [after]
    refine Fields.Related.set (laying.shows.imp_mem fun entry member other shown => ?_) name ?_
    · have same := extended.agrees laying.sound (laying.sound out entry member)
      exact shows_of_write confined.region _ (laying.apart entry member) (same.shows shown)
    · exact shows_of_write confined.region _ only shows

theorem layEntries_laying (lays : Lays join depth) (joins : JoinsWithin join (· ≠ out))
    (sound : heap.Sound) {todo : Fields Stored} {documents : Fields Document}
    (holds : heap.HoldsAll todo)
    (shown : Fields.Related (fun value document =>
      unloadWith (heap.unloadMap depth) value = some document) todo documents)
    (laying : Laying heap now out done) :
    Laying heap (layEntries join now out todo) out (Document.overlayFields done documents) := by
  induction shown generalizing now done with
  | nil => exact laying
  | @cons entry other rest others here _ ih =>
    obtain ⟨name, value⟩ := entry
    obtain ⟨_, document⟩ := other
    obtain ⟨rfl, shown⟩ := here
    obtain ⟨first, later⟩ := List.forall_mem_cons.mp holds
    have has : (now.fields out).has name = done.has name := by
      rw [Bool.eq_iff_iff, Fields.has_iff, Fields.has_iff, laying.shows.names_eq]
    rw [layEntries, Document.overlayFields, has]
    split
    · exact ih later laying
    · have grows : heap.maps.size ≤ now.maps.size :=
        Nat.le_of_lt (Nat.lt_of_le_of_lt laying.new laying.present)
      have agrees : Agrees heap now value :=
        fun address reaches => laying.old address (sound.reached_inside first reaches)
      have apart : value.Only (· ≠ out) :=
        first.mono fun _ inside => Nat.ne_of_lt (Nat.lt_of_lt_of_le inside laying.new)
      have entries {held : Stored} (found : held ∈ (now.fields out).get? name) :
          (name, held) ∈ now.fields out := Fields.mem_of_get? found
      obtain ⟨extended, whole, shows⟩ := layValue_shows lays laying.sound
        (fun held found => laying.sound out _ (entries found)) (first.grow grows)
        (laying.shows.get?_rel name) (agrees.unloadWith shown)
      obtain ⟨confined, only⟩ := layValue_confined joins laying.region
        (fun held found => laying.apart _ (entries found)) apart
      exact ih later (laying.set name extended confined whole only shows)

end Entries

theorem layOver_lays (depth : Nat) : Lays (layOver depth) depth := by
  induction depth with
  | zero =>
    intro heap base above below top _ _ _ _ shown
    cases shown
  | succ depth ih =>
    intro heap base above below top sound lower upper first second
    obtain ⟨documents, shown, same⟩ := unloadMap_succ_iff.mp second
    cases same
    have laid := layEntries_laying ih (layOver_within depth) sound (sound above)
      (unloadFields_iff.mp shown) (.start sound lower first)
    have grows := Nat.lt_of_le_of_lt laid.new laid.present
    exact ⟨⟨Nat.le_of_lt grows, fun _ => laid.sound, laid.old⟩, .map laid.present,
      shows_map_iff.mpr ⟨_, rfl, laid.shows⟩⟩

end Laid

end VirtualInstrument.Heap

namespace VirtualInstrument.Document

section Paths
variable {base above : Fields Document}

/-- What is held at each path once one document lies over another: the value laid over, what either
    holds alone, or nothing below something that is no map. An empty document changes nothing; in
    memory only new maps are written. -/
theorem overlay_at_every_path (lower : (Document.map base).Proper)
    (upper : (Document.map above).Proper) :
    let merged := Document.map (overlayFields base above)
    (∀ path, path ≠ [] →
      ((Document.map above).Shadows path → merged.at? path = none) ∧
      (¬ (Document.map above).Shadows path → (Document.map above).at? path = none →
        merged.at? path = (Document.map base).at? path) ∧
      ∀ value, (Document.map above).at? path = some value → ∃ held,
        merged.at? path = some held ∧ Laid ((Document.map base).at? path) value held) ∧
    overlayFields base [] = base ∧ overlayFields [] above = above ∧
    ∀ (heap : Heap) (under top : Address) (depth : Nat), heap.Sound → heap.Holds (.map under) →
      heap.Holds (.map top) → heap.Shows (.map under) (.map base) →
      heap.unloadMap depth top = some (.map above) →
        let result := heap.layOver depth under top
        result.1.Shows (.map result.2) merged ∧
          (∀ address, address < heap.maps.size →
            result.1.fields address = heap.fields address) ∧
          result.1.Shows (.map under) (.map base) ∧ result.1.Shows (.map top) (.map above) := by
  intro merged
  refine ⟨fun path below_top => ?_, overlayFields_nil base, ?_, ?_⟩
  · obtain ⟨shadowed, free⟩ := at?_overlay base upper below_top
    refine ⟨shadowed, fun open_way nothing => ?_, fun value held => ?_⟩
    · rw [free open_way, nothing]
    · have open_way : ¬ (Document.map above).Shadows path := by
        intro shadows
        rw [shadows.at?_eq_none] at held
        cases held
      refine ⟨_, (free open_way).trans (by rw [held]), overlayValue_laid ?_ ?_⟩
      · exact fun fields under => (lower path fields under).1
      · intro deeper fields leads
        refine upper (path ++ deeper) fields ?_
        rw [at?_append, held]
        exact leads
  · obtain ⟨listed, unreserved⟩ := upper.fields_listed
    exact overlayFields_behind listed unreserved
  · intro heap under top depth sound first second shows shown
    obtain ⟨extended, -, result⟩ := Heap.layOver_lays depth sound first second shows shown
    exact ⟨result, extended.old, (extended.agrees sound first).shows shows,
      (extended.agrees sound second).shows ⟨depth, shown⟩⟩

def settings : Fields Document :=
  [(text "1", .string (text "one")), (text "list", .list [.string (text "p")]),
    (text "flag", .map [(text "deep", .boolean true)]),
    (text "cfg", .map [(text "x", .string (text "s"))])]

def wishes : Fields Document :=
  [(text "flag", .string (text "off")), (text "list", .list [.string (text "q")]),
    (text "cfg", .map [(text "y", .null)])]

theorem settings_proper : (Document.map settings).Proper := by
  refine .map (by decide) (by decide) ?_
  simp only [settings, List.forall_mem_cons]
  refine ⟨.of_no_map (by simp), .of_no_map (by simp), .map (by decide) (by decide) ?_,
    .map (by decide) (by decide) ?_, List.forall_mem_nil _⟩
  · exact List.forall_mem_singleton.mpr (.of_no_map (by simp))
  · exact List.forall_mem_singleton.mpr (.of_no_map (by simp))

theorem wishes_proper : (Document.map wishes).Proper := by
  refine .map (by decide) (by decide) ?_
  simp only [wishes, List.forall_mem_cons]
  refine ⟨.of_no_map (by simp), .of_no_map (by simp), .map (by decide) (by decide) ?_,
    List.forall_mem_nil _⟩
  exact List.forall_mem_singleton.mpr (.of_no_map (by simp))

def bothLoaded : Heap := ((Heap.empty.load (.map settings)).1.load (.map wishes)).1

theorem overlay_of_conflicting_shapes :
    (Document.map settings).Proper ∧ (Document.map wishes).Proper ∧
      let merged := Document.map (overlayFields settings wishes)
      (Document.map wishes).Shadows [text "flag", text "deep"] ∧
        merged.at? [text "flag", text "deep"] = none ∧
        merged.at? [text "list"] = some (.list [.string (text "q"), .string (text "p")]) ∧
        (bothLoaded.layOver 2 2 4).1.Shows (.map (bothLoaded.layOver 2 2 4).2) merged ∧
        ∀ address, address < bothLoaded.maps.size →
          (bothLoaded.layOver 2 2 4).1.fields address = bothLoaded.fields address := by
  obtain ⟨paths, -, -, memory⟩ := overlay_at_every_path settings_proper wishes_proper
  have shadows : (Document.map wishes).Shadows [text "flag", text "deep"] :=
    ⟨[text "flag"], [text "deep"], .string (text "off"), rfl, List.cons_ne_nil _ _, by decide,
      by simp⟩
  have list : (Document.map settings).at? [text "list"] = some (.list [.string (text "p")]) := by
    decide
  obtain ⟨held, found, laid⟩ := (paths [text "list"] (List.cons_ne_nil _ _)).2.2
    (.list [.string (text "q")]) (by decide)
  have sound : bothLoaded.Sound :=
    (Heap.load_extends _ _).1.sound ((Heap.load_extends _ _).1.sound Heap.sound_empty)
  obtain ⟨result, old, -, -⟩ := memory bothLoaded 2 4 2 sound (.map (by decide)) (.map (by decide))
    ⟨2, by decide⟩ (by decide)
  refine ⟨settings_proper, wishes_proper, shadows,
    (paths _ (List.cons_ne_nil _ _)).1 shadows, ?_, result, old⟩
  rw [list] at laid
  cases laid with
  | lists => exact found
  | other no_lists _ => exact absurd rfl (no_lists _ _ rfl)

end Paths

end VirtualInstrument.Document
