import VirtualInstrument.Profile.Location
import VirtualInstrument.Proofs.Files.Path
/- Where the user's changes to a packaged profile are. The same names lead from the overrides to the
   changes as lead from the packaged profiles to the profile, so the two trees have one shape; only
   a profile on whose way down the first name begins with two points is taken for one outside. -/
namespace VirtualInstrument.Profile
open VirtualInstrument.Path

def Dotted (names : List Text) : Prop := ∃ first rest, names = first :: rest ∧ parent <+: first

section Overrides
variable {roots : ProfileRoots} {path : Text} {names : List Text}

theorem overridePath?_of_below (below : Below roots.packaged path names) (plain : ¬ Dotted names) :
    overridePath? path roots = some (joined (roots.overrides :: names)) := by
  have filled := joinSegments_ne_nil below.each_is_name below.strictly
  have down : Path.parent.isPrefixOf (joinSegments names) = false := by
    rw [Bool.eq_false_iff, ne_eq, List.isPrefixOf_iff_prefix]
    obtain ⟨first, rest, rfl⟩ := List.exists_cons_of_ne_nil below.strictly
    rw [parent_prefix_joined (below.each_is_name first List.mem_cons_self)]
    exact fun begins => plain ⟨first, rest, rfl, begins⟩
  simp only [overridePath?, relative_of_leads below.leads]
  rw [if_neg (by simp [filled, down]), joined_joinSegments _ below.each_is_name below.strictly]

theorem overridePath?_of_dotted (below : Below roots.packaged path names) (dotted : Dotted names) :
    overridePath? path roots = none := by
  obtain ⟨first, rest, rfl, begins⟩ := dotted
  have up := (parent_prefix_joined (below.each_is_name first List.mem_cons_self) rest).mpr begins
  simp only [overridePath?, relative_of_leads below.leads]
  rw [if_pos (by simp [List.isPrefixOf_iff_prefix.mpr up])]

theorem overridePath?_of_not_below (outside : ∀ names, ¬ Below roots.packaged path names) :
    overridePath? path roots = none := by
  unfold overridePath?
  by_cases same : place path = place roots.packaged
  · have empty : relative roots.packaged path = [] :=
      relative_of_leads (same.trans (List.append_nil _).symm)
    simp [empty]
  · have up : parent <+: relative roots.packaged path := by
      refine parent_prefix_relative fun names leads => outside names ⟨?_, leads⟩
      rintro rfl
      exact same (leads.trans (List.append_nil _))
    simp [List.isPrefixOf_iff_prefix.mpr up]

theorem overridePath?_eq_some_iff {override : Text} : overridePath? path roots = some override ↔
    ∃ names, Below roots.packaged path names ∧ ¬ Dotted names ∧
      override = joined (roots.overrides :: names) := by
  constructor
  · intro found
    by_cases inside : ∃ names, Below roots.packaged path names
    · obtain ⟨names, below⟩ := inside
      by_cases dotted : Dotted names
      · rw [overridePath?_of_dotted below dotted] at found
        cases found
      · rw [overridePath?_of_below below dotted, Option.some.injEq] at found
        exact ⟨names, below, dotted, found.symm⟩
    · rw [overridePath?_of_not_below (not_exists.mp inside)] at found
      cases found
  · rintro ⟨names, below, plain, rfl⟩
    exact overridePath?_of_below below plain

end Overrides

/-- A profile has an override path exactly when names lead down to it from the packaged profiles and
    the first does not begin with two points. The same names lead from the overrides to that path,
    so no two profiles share one. -/
theorem overrides_mirror_packaged_iff {roots : ProfileRoots}
    (rooted : isAbsolute roots.overrides = true) (path : Text) :
    ((overridePath? path roots).isSome = true ↔
      ∃ names, Below roots.packaged path names ∧ ¬ Dotted names) ∧
    ∀ override, overridePath? path roots = some override →
      (∃ names, Below roots.packaged path names ∧ override = joined (roots.overrides :: names) ∧
        Below roots.overrides override names) ∧
      ∀ other, overridePath? other roots = some override → absolute other = absolute path := by
  constructor
  · rw [Option.isSome_iff_exists]
    simp only [overridePath?_eq_some_iff]
    constructor
    · rintro ⟨-, names, below, plain, -⟩
      exact ⟨names, below, plain⟩
    · rintro ⟨names, below, plain⟩
      exact ⟨_, names, below, plain, rfl⟩
  · intro override found
    obtain ⟨names, below, -, rfl⟩ := overridePath?_eq_some_iff.mp found
    have mirrored := below_joined rooted below.each_is_name below.strictly
    refine ⟨⟨names, below, rfl, mirrored⟩, ?_⟩
    intro other same
    obtain ⟨others, again, -, joins⟩ := overridePath?_eq_some_iff.mp same
    have back := below_joined rooted again.each_is_name again.strictly
    rw [← joins] at back
    rw [absolute_eq_iff, below.leads, again.leads, mirrored.unique back]

def roundaboutRoots : ProfileRoots :=
  ⟨text "//opt/./bench/../profiles/", text "/home/user/../user/changes"⟩

theorem roundabout_profile_mirrored :
    overridePath? (text "/opt/profiles/acme//x/../..psu.json") roundaboutRoots =
        some (text "/home/user/changes/acme/..psu.json") ∧
      Below roundaboutRoots.overrides (text "/home/user/changes/acme/..psu.json")
        [text "acme", text "..psu.json"] := by
  have found : overridePath? (text "/opt/profiles/acme//x/../..psu.json") roundaboutRoots =
      some (text "/home/user/changes/acme/..psu.json") := by decide +kernel
  obtain ⟨names, below, joins, mirrored⟩ := ((overrides_mirror_packaged_iff (by decide +kernel)
    (text "/opt/profiles/acme//x/../..psu.json")).2 _ found).1
  have named : Below roundaboutRoots.packaged (text "/opt/profiles/acme//x/../..psu.json")
      [text "acme", text "..psu.json"] := ⟨by simp, by decide +kernel⟩
  rw [below.unique named] at mirrored
  exact ⟨found, mirrored⟩

/-- A profile right below the packaged ones has no override path when its name begins with two
    points. -/
theorem dotted_profile_not_mirrored :
    Below (text "/p") (text "/p/..a.json") [text "..a.json"] ∧
      overridePath? (text "/p/..a.json") ⟨text "/p", text "/o"⟩ = none :=
  ⟨⟨by simp, by decide +kernel⟩, by decide +kernel⟩

end VirtualInstrument.Profile
