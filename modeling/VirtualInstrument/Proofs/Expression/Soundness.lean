import VirtualInstrument.Proofs.Expression.Lexemes
import VirtualInstrument.Proofs.Expression.Shapes
import VirtualInstrument.Proofs.Outcomes
/- What the reader returns is well formed. Names come from the text as names, never as keywords, and
   each parser puts together what the parsers of its parts return. -/
namespace VirtualInstrument.Expression

open Text

def Named (list : List Token) : Prop := ∀ token ∈ list, ∀ name, token.kind = .name name → IsName name

abbrev Sound (tree : Tree) : Prop := Formed (fun _ => True) tree

/-- A parser that returns only what has a property, and leaves only named tokens over. -/
def Yields {α : Type} (parser : Parser α) (property : α → Prop) : Prop :=
  ∀ list value rest, Named list → parser list = .ok (value, rest) → property value ∧ Named rest

theorem Named.tail {token : Token} {list : List Token} (named : Named (token :: list)) :
    Named list := (List.forall_mem_cons.mp named).2

theorem Named.rest_of_expect {symbol : Symbol} {list rest : List Token} (named : Named list)
    (taken : expect symbol list = .ok rest) : Named rest := by
  cases list with
  | nil => cases taken
  | cons token list =>
    rw [Expression.expect] at taken
    split at taken
    · cases taken
      exact named.tail
    · cases taken

theorem Named.rest_of_skip {symbol : Symbol} {list rest : List Token} (named : Named list)
    (taken : skip? symbol list = some rest) : Named rest := by
  cases list with
  | nil => cases taken
  | cons token list =>
    rw [skip?] at taken
    split at taken
    · cases taken
      exact named.tail
    · cases taken

theorem Named.rest_of_operator {ω : Type} {classify : Symbol → Option ω} {list rest : List Token}
    {operator : ω} (named : Named list)
    (taken : operator? classify list = some (operator, rest)) : Named rest := by
  cases list with
  | nil => cases taken
  | cons token list =>
    obtain ⟨kind, place⟩ := token
    cases kind with
    | symbol symbol =>
      obtain ⟨found, _, same⟩ := Option.map_eq_some_iff.mp taken
      cases same
      exact named.tail
    | _ => cases taken

section Chains
variable {ω : Type} {classify : Symbol → Option ω} {build : ω → Tree → Tree → Tree}
  {operand : Parser Tree}

theorem yields_chainFrom (yields : Yields operand Sound)
    (builds : ∀ operator left right, Sound left → Sound right → Sound (build operator left right))
    (fuel : Nat) {left : Tree} (begun : Sound left) :
    Yields (chainFrom classify build operand fuel left) Sound := by
  induction fuel generalizing left with
  | zero =>
    intro list tree rest named whole
    cases whole
    exact ⟨begun, named⟩
  | succ fuel ih =>
    intro list tree rest named whole
    rw [chainFrom] at whole
    split at whole
    · cases whole
      exact ⟨begun, named⟩
    · rename_i taken
      obtain ⟨⟨right, more⟩, read, whole⟩ := bind_ok whole
      obtain ⟨sound, others⟩ := yields _ _ _ (named.rest_of_operator taken) read
      exact ih (builds _ _ _ begun sound) more tree rest others whole

theorem yields_chain (yields : Yields operand Sound)
    (builds : ∀ operator left right, Sound left → Sound right → Sound (build operator left right)) :
    Yields (chain classify build operand) Sound := by
  intro list tree rest named whole
  obtain ⟨⟨first, more⟩, read, whole⟩ := bind_ok whole
  obtain ⟨sound, others⟩ := yields _ _ _ named read
  exact yields_chainFrom yields builds more.length sound more tree rest others whole

end Chains

theorem yields_itemsFrom {parser : Parser Tree} (yields : Yields parser Sound) (closing : Symbol)
    (fuel : Nat) : Yields (itemsFrom parser closing fuel) fun trees => ∀ tree ∈ trees, Sound tree := by
  induction fuel with
  | zero =>
    intro list trees rest named whole
    cases whole
  | succ fuel ih =>
    intro list trees rest named whole
    rw [itemsFrom] at whole
    obtain ⟨⟨item, more⟩, read, whole⟩ := bind_ok whole
    obtain ⟨sound, others⟩ := yields _ _ _ named read
    dsimp only at whole
    split at whole
    · rename_i taken
      obtain ⟨⟨items, last⟩, further, whole⟩ := bind_ok whole
      obtain ⟨all, left⟩ := ih _ _ _ (others.rest_of_skip taken) further
      cases whole
      exact ⟨List.forall_mem_cons.mpr ⟨sound, all⟩, left⟩
    · obtain ⟨left, taken, whole⟩ := bind_ok whole
      cases whole
      exact ⟨by simpa using sound, others.rest_of_expect taken⟩

theorem yields_items {parser : Parser Tree} (yields : Yields parser Sound) (closing : Symbol) :
    Yields (items parser closing) fun trees => ∀ tree ∈ trees, Sound tree := by
  intro list trees rest named whole
  rw [items] at whole
  split at whole
  · rename_i taken
    cases whole
    exact ⟨by simp, named.rest_of_skip taken⟩
  · exact yields_itemsFrom yields closing _ _ _ _ named whole

structure SoundLevel (inner : Level) : Prop where
  expression : Yields inner.expression Sound
  negation : Yields inner.negation Sound
  signed : Yields inner.signed Sound
  listItems : Yields inner.listItems fun trees => ∀ tree ∈ trees, Sound tree

section Places
variable {inner : Level} (level : SoundLevel inner)
include level

theorem yields_primary : Yields (primary inner) Sound := by
  intro list tree rest named whole
  unfold primary at whole
  split at whole
  · cases whole
  · cases whole
    exact ⟨.literal trivial, named.tail⟩
  · rename_i name place others
    cases whole
    exact ⟨.name (named ⟨.name name, place⟩ (by simp) name rfl), named.tail⟩
  · obtain ⟨⟨inside, more⟩, read, whole⟩ := bind_ok whole
    obtain ⟨sound, others⟩ := level.expression _ _ _ named.tail read
    obtain ⟨left, taken, whole⟩ := bind_ok whole
    cases whole
    exact ⟨sound, others.rest_of_expect taken⟩
  · obtain ⟨⟨trees, more⟩, read, whole⟩ := bind_ok whole
    obtain ⟨all, others⟩ := level.listItems _ _ _ named.tail read
    cases whole
    exact ⟨.list all, others⟩
  · cases whole
  · cases whole

omit level in
theorem yields_propertyName {list rest : List Token} {name : Text} (named : Named list)
    (whole : propertyName list = .ok (name, rest)) : IsName name ∧ Named rest := by
  unfold propertyName at whole
  split at whole
  · cases whole
  · rename_i place others
    cases whole
    exact ⟨named ⟨.name name, place⟩ (by simp) name rfl, named.tail⟩
  · cases whole

theorem yields_postfixFrom (fuel : Nat) {tree : Tree} (begun : Sound tree) :
    Yields (postfixFrom inner fuel tree) Sound := by
  induction fuel generalizing tree with
  | zero =>
    intro list result rest named whole
    cases whole
    exact ⟨begun, named⟩
  | succ fuel ih =>
    intro list result rest named whole
    rw [postfixFrom] at whole
    split at whole
    · rename_i taken
      obtain ⟨⟨name, more⟩, read, whole⟩ := bind_ok whole
      obtain ⟨proper, others⟩ := yields_propertyName (named.rest_of_skip taken) read
      exact ih (.member begun proper) _ _ _ others whole
    · rename_i taken
      obtain ⟨⟨place, more⟩, read, whole⟩ := bind_ok whole
      obtain ⟨sound, others⟩ := level.expression _ _ _ (named.rest_of_skip taken) read
      obtain ⟨left, close, whole⟩ := bind_ok whole
      exact ih (.index begun sound) _ _ _ (others.rest_of_expect close) whole
    · rename_i taken
      obtain ⟨⟨arguments, more⟩, read, whole⟩ := bind_ok whole
      obtain ⟨all, others⟩ := yields_items level.expression _ _ _ _ (named.rest_of_skip taken) read
      exact ih (.call begun all) _ _ _ others whole
    · cases whole
      exact ⟨begun, named⟩

theorem yields_postfixed : Yields (postfixed inner) Sound := by
  intro list tree rest named whole
  obtain ⟨⟨first, more⟩, read, whole⟩ := bind_ok whole
  obtain ⟨sound, others⟩ := yields_primary level _ _ _ named read
  exact yields_postfixFrom level _ sound _ _ _ others whole

theorem yields_signedFrom (fuel : Nat) : Yields (signedFrom inner fuel) Sound := by
  induction fuel with
  | zero =>
    intro list tree rest named whole
    cases whole
  | succ fuel ih =>
    intro list tree rest named whole
    rw [signedFrom] at whole
    split at whole
    · rename_i taken
      obtain ⟨⟨operand, more⟩, read, whole⟩ := bind_ok whole
      obtain ⟨sound, others⟩ := level.signed _ _ _ (named.rest_of_operator taken) read
      cases whole
      exact ⟨.signed sound, others⟩
    · obtain ⟨⟨base, more⟩, read, whole⟩ := bind_ok whole
      obtain ⟨sound, others⟩ := yields_postfixed level _ _ _ named read
      dsimp only at whole
      split at whole
      · rename_i taken
        obtain ⟨⟨exponent, last⟩, further, whole⟩ := bind_ok whole
        obtain ⟨second, left⟩ := ih _ _ _ (others.rest_of_skip taken) further
        cases whole
        exact ⟨.arithmetic sound second, left⟩
      · cases whole
        exact ⟨sound, others⟩

theorem yields_signed : Yields (signed inner) Sound := by
  intro list tree rest named whole
  exact yields_signedFrom level _ _ _ _ named whole

theorem yields_sum : Yields (sum inner) Sound :=
  yields_chain (yields_chain (yields_signed level) fun _ _ _ => .arithmetic) fun _ _ _ => .arithmetic

omit level in
theorem yields_comparisonsFrom {operand : Parser Tree} (yields : Yields operand Sound)
    (fuel : Nat) :
    Yields (comparisonsFrom operand fuel) fun parts => ∀ part ∈ parts, Sound part.2 := by
  induction fuel with
  | zero =>
    intro list parts rest named whole
    cases whole
    exact ⟨by simp, named⟩
  | succ fuel ih =>
    intro list parts rest named whole
    rw [comparisonsFrom] at whole
    split at whole
    · cases whole
      exact ⟨by simp, named⟩
    · rename_i taken
      obtain ⟨⟨tree, more⟩, read, whole⟩ := bind_ok whole
      obtain ⟨sound, others⟩ := yields _ _ _ (named.rest_of_operator taken) read
      obtain ⟨⟨later, last⟩, further, whole⟩ := bind_ok whole
      obtain ⟨all, left⟩ := ih _ _ _ others further
      cases whole
      exact ⟨List.forall_mem_cons.mpr ⟨sound, all⟩, left⟩

theorem yields_comparison : Yields (comparison inner) Sound := by
  intro list tree rest named whole
  obtain ⟨⟨first, more⟩, read, whole⟩ := bind_ok whole
  obtain ⟨sound, others⟩ := yields_sum level _ _ _ named read
  obtain ⟨⟨parts, last⟩, further, whole⟩ := bind_ok whole
  obtain ⟨all, left⟩ := yields_comparisonsFrom (yields_sum level) _ _ _ _ others further
  cases parts with
  | nil =>
    cases whole
    exact ⟨sound, left⟩
  | cons part parts =>
    cases whole
    exact ⟨.comparison sound (by simp) all, left⟩

theorem yields_negation : Yields (negation inner) Sound := by
  intro list tree rest named whole
  rw [negation] at whole
  split at whole
  · rename_i taken
    obtain ⟨⟨operand, more⟩, read, whole⟩ := bind_ok whole
    obtain ⟨sound, others⟩ := level.negation _ _ _ (named.rest_of_skip taken) read
    cases whole
    exact ⟨.negation sound, others⟩
  · exact yields_comparison level _ _ _ named whole

theorem yields_alternatives : Yields (alternatives inner) Sound :=
  yields_chain (yields_chain (yields_negation level) fun _ _ _ => .conjunction)
    fun _ _ _ => .disjunction

theorem yields_expression : Yields (expression inner) Sound := by
  intro list tree rest named whole
  obtain ⟨⟨test, more⟩, read, whole⟩ := bind_ok whole
  obtain ⟨sound, others⟩ := yields_alternatives level _ _ _ named read
  dsimp only at whole
  split at whole
  · cases whole
    exact ⟨sound, others⟩
  · rename_i taken
    obtain ⟨⟨consequent, last⟩, first, whole⟩ := bind_ok whole
    obtain ⟨second, left⟩ := level.expression _ _ _ (others.rest_of_skip taken) first
    obtain ⟨behind, colon, whole⟩ := bind_ok whole
    obtain ⟨⟨alternate, final⟩, next, whole⟩ := bind_ok whole
    obtain ⟨third, leftover⟩ := level.expression _ _ _ (left.rest_of_expect colon) next
    cases whole
    exact ⟨.conditional sound second third, leftover⟩

end Places

theorem level_sound (room : Nat) : SoundLevel (level room) := by
  induction room with
  | zero =>
    refine ⟨?_, ?_, ?_, ?_⟩
    · intro list tree rest named whole
      cases whole
    · intro list tree rest named whole
      cases whole
    · intro list tree rest named whole
      cases whole
    · intro list trees rest named whole
      cases whole
  | succ room ih =>
    exact ⟨yields_expression ih, yields_negation ih, yields_signed ih,
      yields_items ih.expression _⟩

theorem Lexed.named {t : Text} {list : List Token} (lexed : Lexed t list) : Named list := by
  induction lexed with
  | stop place => simp [Named]
  | blank _ _ ih => exact ih
  | token place taken _ ih =>
    refine List.forall_mem_cons.mpr ⟨?_, ih⟩
    rintro name ⟨⟩
    exact taken.isName

/-- The reader returns well formed trees. -/
theorem sound_of_read {source : Text} {expression : Expression}
    (whole : read source = .ok expression) : Sound expression.tree := by
  unfold read at whole
  dsimp only at whole
  split at whole
  · cases whole
  · split at whole
    · cases whole
    · obtain ⟨list, lexed, whole⟩ := bind_ok whole
      obtain ⟨tree, parsed, whole⟩ := bind_ok whole
      cases whole
      obtain ⟨⟨first, rest⟩, read, parsed⟩ := bind_ok parsed
      obtain ⟨sound, _⟩ :=
        (level_sound depthLimit).expression _ _ _ (lexed_of_tokens lexed).named read
      dsimp only at parsed
      split at parsed
      · cases parsed
      · split at parsed
        · cases parsed
          exact sound
        · cases parsed

end VirtualInstrument.Expression
