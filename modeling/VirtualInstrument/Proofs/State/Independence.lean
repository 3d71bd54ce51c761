import VirtualInstrument.Proofs.State.Setting
/- When keys are independent. Two keys neither of which lies on the path of the other need not be:
   the map in which one is set can be part of what the other reads. Setting keys leaves all such
   readings alone exactly when no map in which a key can be set is shared. -/
namespace VirtualInstrument.Store

/-- Neither key lies on the path of the other. -/
structure Apart (key other : Text) : Prop where
  outside : ¬ segments key <+: segments other
  inside : ¬ segments other <+: segments key

/-- A key reads the same in two states, down to the last map of what it reads. -/
structure Keeps (before after : Store) (key : Text) : Prop where
  reading : after.get? key = before.get? key
  agrees : ∀ value, before.get? key = some value → Heap.Agrees before.heap after.heap value

/-- The map in which a key is set is not shared: one way leads to it, and it is part of what a key
    reads only if that key lies on this way. -/
structure Solitary (store : Store) (key : Text) : Prop where
  ways : ∀ way, (∀ name ∈ way, Text.unit '.' ∉ name) →
    follow? store.heap (.map store.root) way = some (.map (store.spot key).holder) →
      way = (store.spot key).way
  values : ∀ other value, store.get? other = some value →
    store.heap.Reaches value (store.spot key).holder → segments other <+: (store.spot key).way

def Unshared (store : Store) : Prop := ∀ key, ¬ store.Refuses key → store.Solitary key

def KeepsApart (store : Store) : Prop :=
  ∀ key value, store.heap.Holds value → (store.set key value).2 = none →
    ∀ other, Apart key other → Keeps store (store.set key value).1 other

theorem segment_plain {key name : Text} (member : name ∈ segments key) : Text.unit '.' ∉ name :=
  Text.not_mem_of_mem_split member

theorem segments_plain {name : Text} (plain : Text.unit '.' ∉ name) : segments name = [name] :=
  Text.split_whole plain

theorem segments_join {path : List Text} (filled : path ≠ [])
    (plain : ∀ name ∈ path, Text.unit '.' ∉ name) :
    segments (Text.join [Text.unit '.'] path) = path :=
  Text.split_join filled plain

theorem spot_way_begins (store : Store) (key : Text) : (store.spot key).way <+: segments key := by
  rcases spot_cases store key with ⟨_, place⟩ | ⟨_, path⟩
  · rw [place]
    exact List.nil_prefix
  · rw [path]
    exact List.prefix_append _ _

theorem get?_holds {store : Store} (sound : store.Sound) {key : Text} {value : Stored}
    (found : store.get? key = some value) : store.heap.Holds value := by
  unfold get? at found
  split at found
  · rename_i held own
    cases found
    exact sound.heap store.root _ (Fields.mem_of_get? own)
  · exact follow?_holds sound.heap (.map sound.root) found

theorem get?_of_path {store : Store} {key : Text} (nested : store.rootFields.get? key = none) :
    store.get? key = follow? store.heap (.map store.root) (segments key) := by
  simp only [get?, nested]

theorem get?_ne_none {store : Store} {key : Text} {value : Stored}
    (found : follow? store.heap (.map store.root) (segments key) = some value) :
    store.get? key ≠ none := by
  unfold get?
  split
  · simp
  · simp [found]

theorem Chain.follow?_eq_none {heap : Heap} {least : Address} {value held : Stored}
    {rest path : List Text} (chain : Chain heap value least rest held) (outside : ¬ rest <+: path)
    (inside : ¬ path <+: rest) : follow? heap held path = none := by
  induction chain generalizing path with
  | last => exact absurd List.nil_prefix outside
  | @link address name rest inner only later ih =>
    cases path with
    | nil => exact absurd List.nil_prefix inside
    | cons segment path =>
      rw [follow?, child?, only, Fields.get?]
      split
      · rename_i same
        subst same
        simp only [List.cons_prefix_cons, true_and] at outside inside
        exact ih outside inside
      · rfl

section Setting
variable {store next : Store} {key : Text} {value held : Stored}

theorem Solitary.not_own (solitary : store.Solitary key) {other : Text} (apart : Apart key other)
    (root : (store.spot key).holder = store.root) : other ≠ (store.spot key).name := by
  rintro rfl
  have start := solitary.ways [] (by simp) (by rw [root]; rfl)
  rcases spot_cases store key with ⟨_, place⟩ | ⟨_, path⟩
  · rw [place] at apart
    exact apart.outside (List.prefix_refl _)
  · rw [← start, List.nil_append] at path
    have plain : Text.unit '.' ∉ (store.spot key).name := segment_plain (by rw [path]; simp)
    refine apart.inside ?_
    rw [segments_plain plain, path]
    exact ⟨_, rfl⟩

theorem Solitary.own_same (solitary : store.Solitary key) (sound : store.Sound)
    (planted : Planted store.heap next.heap (store.spot key) value held)
    (root : next.root = store.root) {other : Text} (apart : Apart key other) :
    next.rootFields.get? other = store.rootFields.get? other := by
  rw [rootFields, root]
  rcases planted.child?_same (.map sound.root) other with same | ⟨top, name⟩
  · exact same
  · exact absurd name (solitary.not_own apart (Stored.map.inj top).symm)

theorem Solitary.path_nothing (solitary : store.Solitary key) (sound : store.Sound)
    (planted : Planted store.heap next.heap (store.spot key) value held)
    {other : Text} (apart : Apart key other) {before after : List Text}
    (path : segments other = before ++ (store.spot key).name :: after)
    (reached : follow? store.heap (.map store.root) before = some (.map (store.spot key).holder)) :
    follow? store.heap (.map store.root) (segments other) = none ∧
      follow? next.heap (.map store.root) (segments other) = none := by
  have plain : ∀ name ∈ segments other, Text.unit '.' ∉ name := fun name => segment_plain
  rw [path] at plain
  have same := solitary.ways before (fun name member => plain name (by simp [member])) reached
  subst same
  have outside := apart.outside
  have inside := apart.inside
  rcases spot_cases store key with ⟨_, place⟩ | ⟨_, whole⟩
  · -- then the key itself is the name that the path comes through
    rw [place] at path plain
    rw [segments_plain (plain key (by simp)), path] at outside
    exact absurd ⟨after, rfl⟩ outside
  · rw [path, whole] at outside inside
    simp only [List.prefix_append_right_inj, List.cons_prefix_cons, true_and] at outside inside
    have more : (store.spot key).rest ≠ [] := by
      intro none
      rw [none] at outside
      exact outside List.nil_prefix
    have still : follow? next.heap (.map store.root) (store.spot key).way =
        some (.map (store.spot key).holder) := by
      rcases planted.follow?_same sound.heap (store.spot key).way (.map sound.root) with
        same | ⟨early, late, again, first⟩
      · rw [same, reached]
      · -- the way would have to be longer than itself
        have before := solitary.ways early
          (fun name member => plain name (by rw [again]; simp [member])) first
        have size := congrArg List.length again
        rw [before] at size
        simp at size
    rw [path, follow?_append, follow?_append, reached, still]
    simp only [Option.bind_some, follow?, child?, planted.entry, planted.absent more,
      Fields.get?_set, if_true, Option.bind_none, true_and]
    exact planted.chain.follow?_eq_none outside inside

theorem Solitary.keeps (solitary : store.Solitary key) (sound : store.Sound)
    (taken : (store.set key value).2 = none) {other : Text} (apart : Apart key other) :
    Keeps store (store.set key value).1 other := by
  obtain ⟨root, held, planted⟩ := set_planted sound taken
  refine ⟨?_, ?_⟩
  · rw [get?, get?, solitary.own_same sound planted root apart, root]
    split
    · rfl
    · rcases planted.follow?_same sound.heap (segments other) (.map sound.root) with
        same | ⟨before, after, path, reached⟩
      · exact same
      · obtain ⟨was, is⟩ := solitary.path_nothing sound planted apart path reached
        rw [was, is]
  · intro read found address reaches
    refine planted.old address (sound.heap.reached_inside (get?_holds sound found) reaches) ?_
    rintro rfl
    exact apart.inside ((solitary.values other read found reaches).trans (spot_way_begins store key))

end Setting

theorem exists_new_name (names : List Text) :
    ∃ name : Text, name ∉ names ∧ Text.unit '.' ∉ name := by
  refine ⟨List.replicate (names.flatten.length + 1) (Text.unit 'x'), ?_, ?_⟩
  · intro member
    have size := (List.sublist_flatten_of_mem member).length_le
    rw [List.length_replicate] at size
    omega
  · intro member
    exact absurd (List.eq_of_mem_replicate member) (by decide)

/-- A name that nothing in sight bears: no segment of the given paths, no entry of the given map,
    and no segment of an entry of the top map. -/
structure New (store : Store) (holder : Address) (paths : List (List Text)) (name : Text) : Prop where
  plain : Text.unit '.' ∉ name
  allowed : name ∉ forbidden
  unused : (store.heap.fields holder).get? name = none
  elsewhere : ∀ path ∈ paths, name ∉ path
  own : ∀ key, name ∈ segments key → store.rootFields.get? key = none

theorem exists_new (store : Store) (holder : Address) (paths : List (List Text)) :
    ∃ name, New store holder paths name := by
  obtain ⟨name, apart, plain⟩ := exists_new_name
    (forbidden ++ (store.heap.fields holder).names ++ paths.flatten ++
      (store.rootFields.names.map segments).flatten)
  simp only [List.mem_append, not_or] at apart
  obtain ⟨⟨⟨allowed, unused⟩, elsewhere⟩, own⟩ := apart
  refine ⟨name, plain, allowed, ?_, ?_, ?_⟩
  · cases found : (store.heap.fields holder).get? name with
    | none => rfl
    | some value => exact absurd (List.mem_map_of_mem (Fields.mem_of_get? found)) unused
  · intro path listed member
    exact elsewhere (List.mem_flatten.mpr ⟨path, listed, member⟩)
  · intro key member
    cases found : store.rootFields.get? key with
    | none => rfl
    | some value =>
      have listed := List.mem_map_of_mem (f := segments)
        (List.mem_map_of_mem (f := Prod.fst) (Fields.mem_of_get? found))
      exact absurd (List.mem_flatten.mpr ⟨_, listed, member⟩) own

theorem assignPath_behind {heap : Heap} {address holder : Address} {way : List Text}
    (reached : mapAt? heap address way = some holder) (value : Stored) {name first : Text}
    {rest : List Text} (path : first :: rest = way ++ [name]) :
    assignPath heap address value first rest = (assign heap holder name value, none) := by
  induction way generalizing address first rest with
  | nil =>
    cases path
    cases reached
    rfl
  | cons next way ih =>
    obtain ⟨rfl, behind⟩ := List.cons.inj path
    obtain ⟨inner, found, later⟩ := mapAt?_cons_iff.mp reached
    cases rest with
    | nil => simp at behind
    | cons second rest =>
      simp only [assignPath, found]
      exact ih later behind

theorem set_behind {store : Store} {way : List Text} {holder : Address}
    (reached : mapAt? store.heap store.root way = some holder) {key name : Text}
    (path : segments key = way ++ [name]) (allowed : ∀ segment ∈ segments key, segment ∉ forbidden)
    (nested : store.rootFields.get? key = none) (value : Stored) :
    store.set key value = ({ store with heap := assign store.heap holder name value }, none) := by
  have clean : ¬ (segments key).any forbidden.contains = true := by
    intro bad
    obtain ⟨segment, listed, member⟩ := (any_forbidden_iff _).mp bad
    exact allowed segment listed member
  have other : store.rootFields.has key = false := by simp [Fields.has, nested]
  unfold set
  simp only [if_neg clean]
  cases whole : segments key with
  | nil => exact absurd whole (Text.split_ne_nil _ key)
  | cons first rest =>
    rw [whole] at path
    cases rest with
    | nil =>
      cases way with
      | nil =>
        cases path
        cases reached
        simp [Text.eq_of_split_single whole]
      | cons next way => simp at path
    | cons second rest =>
      have behind := assignPath_behind reached value path
      simp [other, behind]

section Sharing
variable {store : Store} {key name : Text} {paths : List (List Text)}

theorem set_new (clear : ¬ store.Refuses key)
    (new : New store (store.spot key).holder paths name) : ∃ fresh,
      segments fresh = (store.spot key).way ++ [name] ∧ ∀ value, store.set fresh value =
        ({ store with heap := assign store.heap (store.spot key).holder name value }, none) := by
  have within : ∀ segment ∈ (store.spot key).way, segment ∈ segments key := fun segment member =>
    (spot_way_begins store key).subset member
  have plain : ∀ segment ∈ (store.spot key).way ++ [name], Text.unit '.' ∉ segment := by
    intro segment member
    rcases List.mem_append.mp member with before | last
    · exact segment_plain (within segment before)
    · rw [List.mem_singleton.mp last]
      exact new.plain
  have path := segments_join (by simp) plain
  refine ⟨_, path, fun value => set_behind (spot_reached store key) path ?_ ?_ value⟩
  · rw [path]
    intro segment member bad
    rcases List.mem_append.mp member with before | last
    · exact clear (.segment segment (within segment before) bad)
    · rw [List.mem_singleton.mp last] at bad
      exact new.allowed bad
  · exact new.own _ (by rw [path]; simp)

theorem spot_inside (sound : store.Sound) (key : Text) :
    (store.spot key).holder < store.heap.maps.size := by
  have found := follow?_mapAt (spot_reached store key)
  cases follow?_holds sound.heap (.map sound.root) found with
  | map inside => exact inside

theorem follow?_new (new : New store (store.spot key).holder paths name) :
    follow? store.heap (.map (store.spot key).holder) [name] = none := by
  simp only [follow?, child?, new.unused, Option.bind_none]

/-- A second way to the map in which a key is set shows what is set there. -/
theorem KeepsApart.way_unique (keeps : store.KeepsApart) (sound : store.Sound)
    (clear : ¬ store.Refuses key) {way : List Text}
    (plain : ∀ segment ∈ way, Text.unit '.' ∉ segment)
    (reached : follow? store.heap (.map store.root) way = some (.map (store.spot key).holder)) :
    way = (store.spot key).way := by
  by_contra differs
  obtain ⟨name, new⟩ := exists_new store (store.spot key).holder [way, (store.spot key).way]
  obtain ⟨fresh, path, sets⟩ := set_new clear new
  have outside : name ∉ way := new.elsewhere _ (by simp)
  have outside' : name ∉ (store.spot key).way := new.elsewhere _ (by simp)
  have second : segments (Text.join [Text.unit '.'] (way ++ [name])) = way ++ [name] := by
    refine segments_join (by simp) ?_
    intro segment member
    rcases List.mem_append.mp member with before | last
    · exact plain segment before
    · rw [List.mem_singleton.mp last]
      exact new.plain
  have apart : Apart fresh (Text.join [Text.unit '.'] (way ++ [name])) := by
    constructor
    · rw [path, second, List.prefix_concat_iff]
      rintro (same | shorter)
      · exact differs (List.append_cancel_right same).symm
      · exact outside (shorter.subset (by simp))
    · rw [path, second, List.prefix_concat_iff]
      rintro (same | shorter)
      · exact differs (List.append_cancel_right same)
      · exact outside' (shorter.subset (by simp))
  have reading := (keeps fresh .null .null (by rw [sets]) _ apart).reading
  rw [sets, get?_of_path (new.own _ (by rw [second]; simp)), second, follow?_append, reached,
    Option.bind_some, follow?_new new] at reading
  have planted := assign_planted (spot_inside sound key) name .null
  refine get?_ne_none (?_ : follow? _ _ _ = some .null) reading
  rw [second, follow?_append]
  rcases planted.follow?_same sound.heap way (.map sound.root) with same | ⟨_, _, again, _⟩
  · simp only [same, reached, Option.bind_some, follow?, child?, planted.entry, Fields.get?_set,
      if_true]
  · exact absurd (by rw [again]; simp) outside

/-- A value that contains the map in which a key is set changes with it. -/
theorem KeepsApart.reached_below_key (keeps : store.KeepsApart) (sound : store.Sound)
    (clear : ¬ store.Refuses key) {other : Text} {value : Stored}
    (found : store.get? other = some value)
    (reaches : store.heap.Reaches value (store.spot key).holder) :
    segments other <+: (store.spot key).way := by
  by_contra differs
  obtain ⟨name, new⟩ := exists_new store (store.spot key).holder [segments other]
  obtain ⟨fresh, path, sets⟩ := set_new clear new
  have outside : name ∉ segments other := new.elsewhere _ (by simp)
  have apart : Apart fresh other := by
    constructor
    · rw [path]
      intro longer
      exact outside (longer.subset (by simp))
    · rw [path, List.prefix_concat_iff]
      rintro (same | shorter)
      · exact outside (by rw [same]; simp)
      · exact differs shorter
  have agrees := (keeps fresh .null .null (by rw [sets]) _ apart).agrees value found _ reaches
  rw [sets] at agrees
  have entry := (assign_planted (spot_inside sound key) name .null).entry
  have shown := congrArg (Fields.get? · name) (entry.symm.trans agrees)
  simp [Fields.get?_set, new.unused] at shown

end Sharing

/-- Setting keys leaves all readings apart from them alone exactly in a state that shares no map in
    which a key can be set. -/
theorem keepsApart_iff {store : Store} (sound : store.Sound) :
    store.KeepsApart ↔ store.Unshared := by
  constructor
  · intro keeps key clear
    exact ⟨fun way plain reached => keeps.way_unique sound clear plain reached,
      fun other value found reaches => keeps.reached_below_key sound clear found reaches⟩
  · intro unshared key value holds taken other apart
    have clear : ¬ store.Refuses key := fun refused =>
      absurd taken ((set_refused_iff store key value).mpr refused)
    exact (unshared key clear).keeps sound taken apart

end VirtualInstrument.Store
