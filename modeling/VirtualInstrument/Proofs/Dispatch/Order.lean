import VirtualInstrument.Proofs.Dispatch.Rules
import VirtualInstrument.Proofs.Document.Listing
import VirtualInstrument.Proofs.Text.Upper
/- The order of the rules of a table. Every rule has the number under which its key came first;
   the rules stand by their wildcards, their fixed units and that number, so that the first rule
   that matches a command is the most specific of all that match it. -/
namespace VirtualInstrument.Dispatch

variable {ν : Type}

/-- What a rule is known by and what decides its place; all of it but the entry and the matcher. -/
structure Standing where
  key : Text
  wildcards : Nat
  literalLength : Nat
  order : Nat

def Rule.standing (rule : Rule ν) : Standing :=
  ⟨rule.key, rule.wildcards, rule.literalLength, rule.order⟩

/-- Fewer wildcards go first, then more fixed units, then the rule that came first. -/
def Standing.Before (a b : Standing) : Prop :=
  a.wildcards < b.wildcards ∨ a.wildcards = b.wildcards ∧
    (b.literalLength < a.literalLength ∨ a.literalLength = b.literalLength ∧ a.order < b.order)

def Rule.Before (a b : Rule ν) : Prop := a.standing.Before b.standing

theorem precedes_iff (a b : Rule ν) : a.precedes b = true ↔ a.Before b := by
  unfold Rule.precedes Rule.Before Standing.Before Rule.standing
  split
  · simp
    omega
  · split
    · simp
      omega
    · simp
      omega

theorem before_trans {a b c : Rule ν} (first : a.Before b) (second : b.Before c) : a.Before c := by
  unfold Rule.Before Standing.Before at *
  omega

theorem before_asymm {a b : Rule ν} (before : a.Before b) : ¬ b.Before a := by
  unfold Rule.Before Standing.Before at *
  omega

theorem before_total {a b : Rule ν} (apart : a.order ≠ b.order) : a.Before b ∨ b.Before a := by
  have orders : a.standing.order ≠ b.standing.order := apart
  unfold Rule.Before Standing.Before
  omega

theorem insertRule_perm (rule : Rule ν) (rules : List (Rule ν)) :
    (insertRule rule rules).Perm (rule :: rules) := by
  induction rules with
  | nil => exact List.Perm.refl _
  | cons first rest ih =>
    unfold insertRule
    split
    · exact List.Perm.refl _
    · exact (ih.cons first).trans (List.Perm.swap rule first rest)

theorem insertRule_sorted {rule : Rule ν} {rules : List (Rule ν)}
    (sorted : rules.Pairwise Rule.Before) (fresh : ∀ other ∈ rules, rule.order ≠ other.order) :
    (insertRule rule rules).Pairwise Rule.Before := by
  induction rules with
  | nil => simp [insertRule]
  | cons first rest ih =>
    obtain ⟨leads, later⟩ := List.pairwise_cons.mp sorted
    obtain ⟨apart, others⟩ := List.forall_mem_cons.mp fresh
    unfold insertRule
    split
    · rename_i goes
      have ahead : rule.Before first := (precedes_iff rule first).mp goes
      refine List.pairwise_cons.mpr ⟨?_, sorted⟩
      intro other member
      rcases List.mem_cons.mp member with rfl | old
      · exact ahead
      · exact before_trans ahead (leads other old)
    · rename_i stays
      have behind : first.Before rule := by
        rcases before_total apart with ahead | behind
        · exact absurd ((precedes_iff rule first).mpr ahead) stays
        · exact behind
      refine List.pairwise_cons.mpr ⟨?_, ih later others⟩
      intro other member
      rcases mem_insertRule_iff.mp member with rfl | old
      · exact behind
      · exact leads other old

theorem replaceEntry_standings (key : Text) (entry : Entry ν) (rules : List (Rule ν)) :
    (replaceEntry key entry rules).map Rule.standing = rules.map Rule.standing := by
  induction rules with
  | nil => rfl
  | cons first rest ih =>
    unfold replaceEntry
    split
    · rfl
    · rw [List.map_cons, List.map_cons, ih]

/-- Rules in their order, where `came` lists their keys as they came. -/
structure Ranked (rules : List Standing) (came : List Text) : Prop where
  distinct : (rules.map Standing.key).Nodup
  numbered : (rules.map Standing.order).Perm (List.range rules.length)
  counted : came.length = rules.length
  first : ∀ rule ∈ rules, came[rule.order]? = some rule.key
  sorted : rules.Pairwise Standing.Before

/-- A table in order: its patterns are ranked, and every exact key is as commands are looked up. -/
structure Table.InOrder (table : Table ν) (came : List Text) : Prop where
  ranked : Ranked (table.patterns.map Rule.standing) came
  exact : ∀ key ∈ table.exact.names, exactKey key = key

theorem Ranked.mem_came_iff {rules : List Standing} {came : List Text} (ranked : Ranked rules came)
    (key : Text) : key ∈ came ↔ ∃ rule ∈ rules, rule.key = key := by
  constructor
  · intro member
    obtain ⟨n, inside, rfl⟩ := List.getElem_of_mem member
    -- some rule has the number under which the key came
    have numbered : n ∈ rules.map Standing.order :=
      ranked.numbered.mem_iff.mpr (List.mem_range.mpr (ranked.counted ▸ inside))
    obtain ⟨rule, listed, rfl⟩ := List.mem_map.mp numbered
    have same := ranked.first rule listed
    rw [List.getElem?_eq_getElem inside] at same
    exact ⟨rule, listed, (Option.some.inj same).symm⟩
  · rintro ⟨rule, listed, rfl⟩
    exact List.mem_of_getElem? (ranked.first rule listed)

theorem Ranked.order_lt {rules : List Standing} {came : List Text} (ranked : Ranked rules came) :
    ∀ rule ∈ rules, rule.order < rules.length := by
  intro rule listed
  exact List.mem_range.mp (ranked.numbered.mem_iff.mp (List.mem_map_of_mem listed))

theorem Ranked.rules_sorted {rules : List (Rule ν)} {came : List Text}
    (ranked : Ranked (rules.map Rule.standing) came) : rules.Pairwise Rule.Before := by
  have sorted := ranked.sorted
  rw [List.pairwise_map] at sorted
  exact sorted

theorem Ranked.insert {rules : List (Rule ν)} {came : List Text}
    (ranked : Ranked (rules.map Rule.standing) came) {rule : Rule ν} (last : rule.order = rules.length)
    (fresh : ∀ other ∈ rules, other.key ≠ rule.key) :
    Ranked ((insertRule rule rules).map Rule.standing) (came ++ [rule.key]) := by
  have perm := (insertRule_perm rule rules).map Rule.standing
  have below : ∀ other ∈ rules, other.order < rules.length := by
    intro other member
    have bound := ranked.order_lt other.standing (List.mem_map_of_mem member)
    rwa [List.length_map] at bound
  have counted := ranked.counted
  rw [List.length_map] at counted
  refine ⟨?_, ?_, ?_, ?_, ?_⟩
  · have keys := perm.map Standing.key
    rw [keys.nodup_iff, List.map_cons, List.map_cons, List.nodup_cons]
    refine ⟨?_, ranked.distinct⟩
    intro member
    rw [List.map_map] at member
    obtain ⟨other, listed, same⟩ := List.mem_map.mp member
    exact fresh other listed same
  · have orders := perm.map Standing.order
    have numbered := ranked.numbered
    rw [List.length_map] at numbered
    rw [perm.length_eq, List.length_map, List.length_cons, List.range_succ]
    refine orders.trans ?_
    have next : rule.standing.order = rules.length := last
    rw [List.map_cons, List.map_cons, next]
    exact (numbered.cons rules.length).trans (List.perm_append_singleton _ _).symm
  · rw [perm.length_eq, List.length_append, counted]
    simp
  · intro standing member
    rcases List.mem_cons.mp (perm.mem_iff.mp member) with rfl | old
    · have place : rule.standing.order = came.length := last.trans counted.symm
      rw [place, List.getElem?_concat_length]
      rfl
    · have bound := ranked.order_lt standing old
      rw [List.length_map, ← counted] at bound
      rw [List.getElem?_append_left bound]
      exact ranked.first standing old
  · rw [List.pairwise_map]
    refine insertRule_sorted ranked.rules_sorted ?_
    intro other member
    have bound := below other member
    omega

def comes (came : List Text) (key : Text) : List Text :=
  if isPatternKey key = true ∧ key ∉ came then came ++ [key] else came

theorem mem_names_put {α : Type} {fields : Fields α} {name other : Text} {value : α}
    (member : other ∈ (fields.put name value).names) : other = name ∨ other ∈ fields.names := by
  unfold Fields.put at member
  split at member
  · rw [Fields.names_replace] at member
    exact .inr member
  · simp only [Fields.names, List.map_append, List.map_cons, List.map_nil, List.mem_append,
      List.mem_singleton] at member
    exact member.symm

theorem exactKey_exactKey (t : Text) : exactKey (exactKey t) = exactKey t := by
  unfold exactKey
  rw [Text.trim_upper (Text.trim_trim t), Text.upper_upper]

theorem Table.InOrder.insert {table next : Table ν} {came : List Text}
    (ordered : table.InOrder came) {key : Text} {entry : Entry ν}
    (insert : table.insert key entry = .ok next) : next.InOrder (comes came key) := by
  unfold Table.insert at insert
  split at insert
  · rename_i plain
    cases insert
    rw [comes, if_neg (by simp_all)]
    refine ⟨ordered.ranked, ?_⟩
    intro name member
    rcases mem_names_put member with rfl | old
    · exact exactKey_exactKey key
    · exact ordered.exact name old
  · rename_i pattern
    have member := ordered.ranked.mem_came_iff key
    split at insert
    · rename_i there
      cases insert
      obtain ⟨rule, listed, same⟩ := List.any_eq_true.mp there
      have came_before : key ∈ came :=
        member.mpr ⟨rule.standing, List.mem_map_of_mem listed, beq_iff_eq.mp same⟩
      rw [comes, if_neg (by simp [came_before])]
      refine ⟨?_, ordered.exact⟩
      rw [replaceEntry_standings]
      exact ordered.ranked
    · rename_i absent
      have fresh : ∀ other ∈ table.patterns, other.key ≠ key := by
        intro other listed same
        exact absent (List.any_eq_true.mpr ⟨other, listed, by simpa using same⟩)
      have new : key ∉ came := by
        intro came_before
        obtain ⟨standing, listed, same⟩ := member.mp came_before
        obtain ⟨other, inside, rfl⟩ := List.mem_map.mp listed
        exact fresh other inside same
      rw [comes, if_pos ⟨by simpa using pattern, new⟩]
      cases read : anchored? (compileKey key).source with
      | none =>
        simp only [read] at insert
        cases insert
      | some matcher =>
        simp only [read] at insert
        cases insert
        exact ⟨ordered.ranked.insert rfl fresh, ordered.exact⟩

theorem firstMatch?_eq_some {command : Text} {rules : List (Rule ν)} {found : Match ν}
    (first : firstMatch? command rules = some found) :
    ∃ before rule after, rules = before ++ rule :: after ∧
      (∀ other ∈ before, other.matcher.captures? command = none) ∧
      rule.matcher.captures? command = some found.captures ∧
      found.key = rule.key ∧ found.entry = rule.entry := by
  induction rules with
  | nil => cases first
  | cons rule rest ih =>
    unfold firstMatch? at first
    split at first
    · rename_i captures captured
      cases first
      exact ⟨[], rule, rest, rfl, by simp, captured, rfl, rfl⟩
    · rename_i missed
      obtain ⟨before, other, after, rfl, misses, captured, key, entry⟩ := ih first
      refine ⟨rule :: before, other, after, rfl, ?_, captured, key, entry⟩
      exact List.forall_mem_cons.mpr ⟨missed, misses⟩

theorem firstMatch?_eq_none_iff (command : Text) (rules : List (Rule ν)) :
    firstMatch? command rules = none ↔ ∀ rule ∈ rules, rule.matcher.captures? command = none := by
  induction rules with
  | nil => simp [firstMatch?]
  | cons rule rest ih =>
    rw [List.forall_mem_cons, ← ih, firstMatch?]
    split
    · rename_i captured
      simp [captured]
    · rename_i missed
      simp [missed]

/-- A rule that matches a command and stands before all others that match it. -/
structure Leads (rules : List (Rule ν)) (command : Text) (rule : Rule ν) : Prop where
  listed : rule ∈ rules
  accepts : (rule.matcher.captures? command).isSome = true
  least : ∀ other ∈ rules, (other.matcher.captures? command).isSome = true →
    other = rule ∨ rule.Before other

theorem Leads.unique {rules : List (Rule ν)} {command : Text} {a b : Rule ν}
    (first : Leads rules command a) (second : Leads rules command b) : a = b := by
  rcases first.least b second.listed second.accepts with same | before
  · exact same.symm
  · rcases second.least a first.listed first.accepts with same | after
    · exact same
    · exact absurd after (before_asymm before)

theorem firstMatch?_leads {rules : List (Rule ν)} (sorted : rules.Pairwise Rule.Before)
    {command : Text} {found : Match ν} (first : firstMatch? command rules = some found) :
    ∃ rule, Leads rules command rule ∧ rule.matcher.captures? command = some found.captures ∧
      found.key = rule.key ∧ found.entry = rule.entry := by
  obtain ⟨before, rule, after, rfl, misses, captured, key, entry⟩ := firstMatch?_eq_some first
  refine ⟨rule, ⟨by simp, by simp [captured], ?_⟩, captured, key, entry⟩
  intro other member accepts
  rcases List.mem_append.mp member with early | late
  · rw [misses other early] at accepts
    cases accepts
  · rcases List.mem_cons.mp late with same | later
    · exact .inl same
    · have behind := (List.pairwise_append.mp sorted).2.1
      exact .inr ((List.pairwise_cons.mp behind).1 other later)

/-- What a table answers a command with: the exact entry, or else that of the leading rule. -/
structure Table.Answers (table : Table ν) (command : Text) : Prop where
  exact : ∀ entry, table.exact.get? (exactKey command) = some entry →
    table.match? command = some ⟨exactKey command, entry, []⟩
  pattern : table.exact.get? (exactKey command) = none → ∀ found,
    (table.match? command = some found ↔
      ∃ rule, Leads table.patterns (Text.trim command) rule ∧
        rule.matcher.captures? (Text.trim command) = some found.captures ∧
        found.key = rule.key ∧ found.entry = rule.entry)
  nothing : table.match? command = none ↔ table.exact.get? (exactKey command) = none ∧
    ∀ rule ∈ table.patterns, rule.matcher.captures? (Text.trim command) = none

theorem Table.InOrder.answers {table : Table ν} {came : List Text} (ordered : table.InOrder came)
    (command : Text) : table.Answers command := by
  have sorted := ordered.ranked.rules_sorted
  have direct (entry : Entry ν) (there : table.exact.get? (exactKey command) = some entry) :
      table.match? command = some ⟨exactKey command, entry, []⟩ := by
    unfold exactKey at there ⊢
    simp only [Table.match?, there]
  have searched (absent : table.exact.get? (exactKey command) = none) :
      table.match? command = firstMatch? (Text.trim command) table.patterns := by
    unfold exactKey at absent
    simp only [Table.match?, absent]
  refine ⟨direct, ?_, ?_⟩
  · intro absent found
    rw [searched absent]
    constructor
    · exact firstMatch?_leads sorted
    · rintro ⟨rule, leads, captured, key, entry⟩
      cases first : firstMatch? (Text.trim command) table.patterns with
      | none =>
        rw [firstMatch?_eq_none_iff] at first
        have missed := first rule leads.listed
        rw [captured] at missed
        cases missed
      | some other =>
        obtain ⟨leader, leading, taken, otherKey, otherEntry⟩ := firstMatch?_leads sorted first
        have same := leads.unique leading
        subst same
        obtain ⟨key', entry', captures'⟩ := found
        obtain ⟨key'', entry'', captures''⟩ := other
        simp_all
  · cases there : table.exact.get? (exactKey command) with
    | some entry => simp [direct entry there]
    | none => simp [searched there, firstMatch?_eq_none_iff]

end VirtualInstrument.Dispatch
