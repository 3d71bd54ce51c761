import VirtualInstrument.Proofs.Expression.Soundness
/- Printing and reading are inverse. A well formed tree with natural numbers in it is read back from
   its print, unless the print is too long or nests too deep; and every tree that the reader returns
   is well formed. -/
namespace VirtualInstrument.Expression

open Text

section Printing

theorem written_enclosed {kinds : List TokenKind} (written : ∀ kind ∈ kinds, Written kind)
    (place rank : Nat) : ∀ kind ∈ enclosed place rank kinds, Written kind := by
  intro kind member
  unfold enclosed at member
  split at member
  · simp only [List.mem_cons, List.mem_append, List.not_mem_nil, or_false] at member
    rcases member with rfl | inside | rfl
    · exact .symbol _
    · exact written kind inside
    · exact .symbol _
  · exact written kind member

theorem written_furtherKinds {items : List Tree}
    (written : ∀ item ∈ items, ∀ kind ∈ item.kinds, Written kind) :
    ∀ kind ∈ furtherKinds items, Written kind := by
  induction items with
  | nil => simp [furtherKinds]
  | cons item rest ih =>
    obtain ⟨here, later⟩ := List.forall_mem_cons.mp written
    rw [furtherKinds, List.forall_mem_cons, List.forall_mem_append]
    exact ⟨.symbol _, here, ih later⟩

theorem written_itemKinds {items : List Tree}
    (written : ∀ item ∈ items, ∀ kind ∈ item.kinds, Written kind) :
    ∀ kind ∈ itemKinds items, Written kind := by
  cases items with
  | nil => simp [itemKinds]
  | cons item rest =>
    obtain ⟨here, later⟩ := List.forall_mem_cons.mp written
    rw [itemKinds, List.forall_mem_append]
    exact ⟨here, written_furtherKinds later⟩

theorem written_comparedKinds {parts : List (Comparison × Tree)}
    (written : ∀ part ∈ parts, ∀ kind ∈ part.2.kinds, Written kind) :
    ∀ kind ∈ comparedKinds parts, Written kind := by
  induction parts with
  | nil => simp [comparedKinds]
  | cons part rest ih =>
    obtain ⟨here, later⟩ := List.forall_mem_cons.mp written
    rw [comparedKinds, List.forall_mem_cons, List.forall_mem_append]
    exact ⟨.symbol _, written_enclosed here _ _, ih later⟩

theorem written_kinds {tree : Tree} (formed : Formed Literal.Natural tree) :
    ∀ kind ∈ tree.kinds, Written kind := by
  induction formed with
  | literal natural => simpa [Tree.kinds] using Written.literal natural
  | name proper => simpa [Tree.kinds] using Written.name proper
  | list all ih =>
    rw [Tree.kinds, List.forall_mem_cons, List.forall_mem_append, List.forall_mem_singleton]
    exact ⟨.symbol _, written_itemKinds ih, .symbol _⟩
  | member whole proper ih =>
    rw [Tree.kinds, List.forall_mem_append, List.forall_mem_cons, List.forall_mem_singleton]
    exact ⟨written_enclosed ih _ _, .symbol _, .name proper⟩
  | index whole inside object place =>
    rw [Tree.kinds, List.forall_mem_append, List.forall_mem_cons, List.forall_mem_append,
      List.forall_mem_singleton]
    exact ⟨written_enclosed object _ _, .symbol _, place, .symbol _⟩
  | call whole all callee ih =>
    rw [Tree.kinds, List.forall_mem_append, List.forall_mem_cons, List.forall_mem_append,
      List.forall_mem_singleton]
    exact ⟨written_enclosed callee _ _, .symbol _, written_itemKinds ih, .symbol _⟩
  | signed inside ih =>
    rw [Tree.kinds, List.forall_mem_cons]
    exact ⟨.symbol _, written_enclosed ih _ _⟩
  | negation inside ih =>
    rw [Tree.kinds, List.forall_mem_cons]
    exact ⟨.symbol _, written_enclosed ih _ _⟩
  | comparison inside some all first ih =>
    rw [Tree.kinds, List.forall_mem_append]
    exact ⟨written_enclosed first _ _, written_comparedKinds ih⟩
  | arithmetic one two first second | conjunction one two first second
  | disjunction one two first second =>
    rw [Tree.kinds, List.forall_mem_append, List.forall_mem_cons]
    exact ⟨written_enclosed first _ _, .symbol _, written_enclosed second _ _⟩
  | conditional one two three first second third =>
    rw [Tree.kinds, List.forall_mem_append, List.forall_mem_cons, List.forall_mem_append,
      List.forall_mem_cons]
    exact ⟨written_enclosed first _ _, .symbol _, second, .symbol _, third⟩

/-- A tree whose print is read back as it, unless the print is too long or has too many levels. -/
def ReadsBack (tree : Tree) : Prop :=
  read tree.printed = .ok ⟨tree.printed, tree⟩ ∨
    lengthLimit < tree.printed.length ∧ read tree.printed = .error .tooLong ∨
    depthLimit < tree.levels ∧ read tree.printed = .error .tooDeep

theorem treeOf_kinds {tree : Tree} {plain : Literal → Prop} (formed : Formed plain tree)
    {list : List Token} (spelled : list.map Token.kind = tree.kinds ++ [.stop]) :
    Comes (depthLimit < tree.levels) (treeOf list) (.ok tree) := by
  obtain ⟨inside, last, rfl, within, behind⟩ := List.map_eq_append_iff.mp spelled
  obtain ⟨⟨_, place⟩, nothing, rfl, rfl, empty⟩ := List.map_eq_cons_iff.mp behind
  obtain rfl := List.map_eq_nil_iff.mp empty
  have closed : Closed 0 [⟨.stop, place⟩] := by
    intro token first symbol kind
    cases first
    cases kind
  exact ((readable_of_formed formed).reads_expression depthLimit inside _ within closed).bind_ok
    (.inl rfl)

theorem readsBack_of_formed {tree : Tree} (formed : Formed Literal.Natural tree) :
    ReadsBack tree := by
  have some : tree.kinds ≠ [] := by
    obtain ⟨kind, rest, same, _⟩ := headed_kinds formed
    simp [same]
  obtain ⟨bare, visible, list, lexed, spelled⟩ := tokens_spaced some (written_kinds formed)
  have filled : (spaced tree.kinds).isEmpty = false := by simpa using visible
  have reading : read tree.printed =
      if lengthLimit < (spaced tree.kinds).length then .error .tooLong
      else (treeOf list).map (⟨tree.printed, ·⟩) := by
    simp only [read, Tree.printed, bare, filled, Bool.false_eq_true, if_false, lexed]
    rfl
  unfold ReadsBack
  rw [reading]
  by_cases long : lengthLimit < (spaced tree.kinds).length
  · rw [if_pos long]
    exact .inr (.inl ⟨long, rfl⟩)
  · rw [if_neg long]
    rcases treeOf_kinds formed spelled with whole | ⟨deep, fails⟩
    · rw [whole]
      exact .inl rfl
    · rw [fails]
      exact .inr (.inr ⟨deep, rfl⟩)

end Printing

mutual

def Tree.literals : Tree → List Literal
  | .literal value => [value]
  | .list items => itemLiterals items
  | .name _ => []
  | .member object _ => object.literals
  | .index object place => object.literals ++ place.literals
  | .call callee arguments => callee.literals ++ itemLiterals arguments
  | .signed _ operand => operand.literals
  | .negation operand => operand.literals
  | .arithmetic _ left right => left.literals ++ right.literals
  | .comparison first rest => first.literals ++ comparedLiterals rest
  | .conjunction left right => left.literals ++ right.literals
  | .disjunction left right => left.literals ++ right.literals
  | .conditional test consequent alternate =>
    test.literals ++ (consequent.literals ++ alternate.literals)

def itemLiterals : List Tree → List Literal
  | [] => []
  | item :: rest => item.literals ++ itemLiterals rest

def comparedLiterals : List (Comparison × Tree) → List Literal
  | [] => []
  | (_, operand) :: rest => operand.literals ++ comparedLiterals rest

end

theorem mem_itemLiterals {value : Literal} {items : List Tree} {item : Tree}
    (listed : item ∈ items) (inside : value ∈ item.literals) : value ∈ itemLiterals items := by
  induction items with
  | nil => cases listed
  | cons first rest ih =>
    rw [itemLiterals, List.mem_append]
    rcases List.mem_cons.mp listed with rfl | later
    · exact .inl inside
    · exact .inr (ih later)

theorem mem_comparedLiterals {value : Literal} {parts : List (Comparison × Tree)}
    {part : Comparison × Tree} (listed : part ∈ parts) (inside : value ∈ part.2.literals) :
    value ∈ comparedLiterals parts := by
  induction parts with
  | nil => cases listed
  | cons first rest ih =>
    rw [comparedLiterals, List.mem_append]
    rcases List.mem_cons.mp listed with rfl | later
    · exact .inl inside
    · exact .inr (ih later)

theorem formed_of_sound {plain : Literal → Prop} {tree : Tree} (sound : Sound tree)
    (fits : ∀ value ∈ tree.literals, plain value) : Formed plain tree := by
  induction sound with
  | @literal value _ => exact .literal (fits value (by simp [Tree.literals]))
  | name proper => exact .name proper
  | list all ih =>
    rw [Tree.literals] at fits
    refine .list ?_
    intro item member
    exact ih item member fun value inside => fits value (mem_itemLiterals member inside)
  | member whole proper ih =>
    rw [Tree.literals] at fits
    exact .member (ih fits) proper
  | call whole all callee ih =>
    rw [Tree.literals, List.forall_mem_append] at fits
    refine .call (callee fits.1) ?_
    intro item member
    exact ih item member fun value inside => fits.2 value (mem_itemLiterals member inside)
  | signed inside ih =>
    rw [Tree.literals] at fits
    exact .signed (ih fits)
  | negation inside ih =>
    rw [Tree.literals] at fits
    exact .negation (ih fits)
  | comparison inside some all first ih =>
    rw [Tree.literals, List.forall_mem_append] at fits
    refine .comparison (first fits.1) some ?_
    intro part member
    exact ih part member fun value inside => fits.2 value (mem_comparedLiterals member inside)
  | index one two first second =>
    rw [Tree.literals, List.forall_mem_append] at fits
    exact .index (first fits.1) (second fits.2)
  | arithmetic one two first second =>
    rw [Tree.literals, List.forall_mem_append] at fits
    exact .arithmetic (first fits.1) (second fits.2)
  | conjunction one two first second =>
    rw [Tree.literals, List.forall_mem_append] at fits
    exact .conjunction (first fits.1) (second fits.2)
  | disjunction one two first second =>
    rw [Tree.literals, List.forall_mem_append] at fits
    exact .disjunction (first fits.1) (second fits.2)
  | conditional one two three first second third =>
    rw [Tree.literals, List.forall_mem_append, List.forall_mem_append] at fits
    exact .conditional (first fits.1) (second fits.2.1) (third fits.2.2)

/-- Where the trees come from that can be printed and read back: they are well formed with natural
    numbers in them, or the reader has returned them and all their numbers are natural. -/
inductive Printable (tree : Tree) : Prop
  | formed (formed : Formed Literal.Natural tree)
  | returned {source : Text} {expression : Expression} (whole : read source = .ok expression)
      (same : expression.tree = tree) (natural : ∀ value ∈ tree.literals, value.Natural)

theorem read_inverts_print {tree : Tree} (printable : Printable tree) : ReadsBack tree := by
  cases printable with
  | formed formed => exact readsBack_of_formed formed
  | returned whole same natural =>
    subst same
    exact readsBack_of_formed (formed_of_sound (sound_of_read whole) natural)

/-- This tree is printed as `- x ** ( + y ) ** 2`. -/
theorem signed_base_reads_back :
    let tree : Tree := .signed .minus (.arithmetic .power (.name (text "x"))
      (.arithmetic .power (.signed .plus (.name (text "y"))) (.literal (.number (Float.ofNat 2)))))
    Printable tree ∧ read tree.printed = .ok ⟨tree.printed, tree⟩ := by
  have isName (u : CodeUnit) (start : isNameStart u = true) (free : keywords.lookup [u] = none)
      (unit : isWordUnit u = true) : IsName [u] :=
    ⟨⟨u, [], rfl, start⟩, by simpa using unit, free⟩
  have formed : Formed Literal.Natural (.signed .minus (.arithmetic .power (.name (text "x"))
      (.arithmetic .power (.signed .plus (.name (text "y")))
        (.literal (.number (Float.ofNat 2)))))) :=
    .signed (.arithmetic (.name (isName _ (by decide) (by decide) (by decide)))
      (.arithmetic (.signed (.name (isName _ (by decide) (by decide) (by decide))))
        (.literal ⟨2, by decide, rfl⟩)))
  refine ⟨.formed formed, ?_⟩
  rcases read_inverts_print (.formed formed) with whole | ⟨long, _⟩ | ⟨deep, _⟩
  · exact whole
  · exact absurd long (by decide)
  · exact absurd deep (by decide)

end VirtualInstrument.Expression
