import VirtualInstrument.Proofs.Expression.Lexing
import VirtualInstrument.Proofs.Expression.Reading
/- Reading printed trees. A tree is well formed when its names are names and its comparisons
   compare something; the tokens of such a tree are read as it at every place, by induction on
   the tree, with one lemma for each kind of node. -/
namespace VirtualInstrument.Expression

inductive Formed (plain : Literal → Prop) : Tree → Prop
  | literal {value : Literal} (fits : plain value) : Formed plain (.literal value)
  | list {items : List Tree} (all : ∀ item ∈ items, Formed plain item) :
      Formed plain (.list items)
  | name {name : Text} (proper : IsName name) : Formed plain (.name name)
  | member {object : Tree} {property : Text} (whole : Formed plain object)
      (proper : IsName property) : Formed plain (.member object property)
  | index {object place : Tree} (whole : Formed plain object) (inside : Formed plain place) :
      Formed plain (.index object place)
  | call {callee : Tree} {arguments : List Tree} (whole : Formed plain callee)
      (all : ∀ argument ∈ arguments, Formed plain argument) : Formed plain (.call callee arguments)
  | signed {sign : Sign} {operand : Tree} (inside : Formed plain operand) :
      Formed plain (.signed sign operand)
  | negation {operand : Tree} (inside : Formed plain operand) : Formed plain (.negation operand)
  | arithmetic {operator : Arithmetic} {left right : Tree} (first : Formed plain left)
      (second : Formed plain right) : Formed plain (.arithmetic operator left right)
  | comparison {first : Tree} {rest : List (Comparison × Tree)} (inside : Formed plain first)
      (some : rest ≠ []) (all : ∀ part ∈ rest, Formed plain part.2) :
      Formed plain (.comparison first rest)
  | conjunction {left right : Tree} (first : Formed plain left) (second : Formed plain right) :
      Formed plain (.conjunction left right)
  | disjunction {left right : Tree} (first : Formed plain left) (second : Formed plain right) :
      Formed plain (.disjunction left right)
  | conditional {test consequent alternate : Tree} (first : Formed plain test)
      (second : Formed plain consequent) (third : Formed plain alternate) :
      Formed plain (.conditional test consequent alternate)

variable {plain : Literal → Prop}

theorem Arithmetic.rank_le (operator : Arithmetic) :
    operator.rank ≤ operator.leftPlace ∧ operator.rank ≤ 7 := by
  cases operator with
  | _ => decide

theorem Arithmetic.places_le (operator : Arithmetic) :
    operator.leftPlace ≤ 8 ∧ operator.rightPlace ≤ 8 := by
  cases operator with
  | _ => decide

theorem Tree.rank_le (tree : Tree) : tree.rank ≤ 8 := by
  cases tree with
  | arithmetic operator => exact Nat.le_succ_of_le operator.rank_le.2
  | _ => simp [Tree.rank]

theorem headed_kinds {tree : Tree} (formed : Formed plain tree) : Headed tree.rank tree.kinds := by
  induction formed with
  | @literal value fits => exact ⟨.literal value, _, rfl, trivial⟩
  | list => exact ⟨.symbol .openBracket, _, rfl, trivial⟩
  | @name name proper => exact ⟨.name name, _, rfl, trivial⟩
  | member whole proper ih =>
    rw [Tree.kinds]
    exact (ih.enclosed 8).append _
  | index whole inside ih =>
    rw [Tree.kinds]
    exact (ih.enclosed 8).append _
  | call whole all ih =>
    rw [Tree.kinds]
    exact (ih.enclosed 8).append _
  | @signed sign operand inside ih =>
    refine ⟨.symbol sign.symbol, _, rfl, ?_⟩
    cases sign with
    | _ => exact Nat.le_refl 7
  | negation inside ih => exact ⟨.symbol .not, _, rfl, Nat.le_refl 3⟩
  | @arithmetic operator left right first second ih =>
    rw [Tree.kinds]
    exact ((ih.enclosed operator.leftPlace).mono operator.rank_le.1).append _
  | comparison inside some all ih =>
    rw [Tree.kinds]
    exact ((ih.enclosed 5).mono (Nat.le_succ 4)).append _
  | conjunction first second ih =>
    rw [Tree.kinds]
    exact (ih.enclosed 2).append _
  | disjunction first second ih =>
    rw [Tree.kinds]
    exact (ih.enclosed 1).append _
  | conditional first second third ih =>
    rw [Tree.kinds]
    exact ((ih.enclosed 1).mono (Nat.zero_le 1)).append _

def Readable (tree : Tree) : Prop :=
  ∀ room place, place ≤ 8 →
    ReadsAt (room + 1 < tree.levelsAt place) (level room) place (tree.kindsAt place) tree

theorem inner_expression {tree : Tree}
    (read : ∀ room, ReadsAt (room + 1 < tree.levels) (level room) 0 tree.kinds tree)
    (room : Nat) : Finishes (room < tree.levels) (level room).expression 0 tree.kinds tree := by
  cases room with
  | zero => exact fun _ _ _ _ => .inr ⟨levels_pos tree, rfl⟩
  | succ room => exact read room

theorem Readable.reads_expression {tree : Tree} (read : Readable tree) (room : Nat) :
    Finishes (room < tree.levels) (level room).expression 0 tree.kinds tree :=
  inner_expression (fun room => read room 0 (Nat.zero_le 8)) room

theorem Readable.reads_negation {tree : Tree} (read : Readable tree) (room : Nat) :
    Finishes (room < tree.levelsAt 3) (level room).negation 3 (tree.kindsAt 3) tree := by
  cases room with
  | zero => exact fun _ _ _ _ => .inr ⟨levelsAt_pos tree 3, rfl⟩
  | succ room => exact read room 3 (by decide)

theorem Readable.reads_signed {tree : Tree} (read : Readable tree) (room : Nat) :
    Finishes (room < tree.levelsAt 7) (level room).signed 7 (tree.kindsAt 7) tree := by
  cases room with
  | zero => exact fun _ _ _ _ => .inr ⟨levelsAt_pos tree 7, rfl⟩
  | succ room => exact Raises.finishes (read room 7 (by decide))

theorem closed_of_none {symbol : Symbol} (none : symbol.level? = none) {token : Token}
    (kind : token.kind = .symbol symbol) (rest : List Token) (place : Nat) :
    Closed place (token :: rest) := by
  refine closed_cons kind ?_
  intro level found
  rw [none] at found
  cases found

theorem Comes.after_expect {α : Type} {deep : Prop} {symbol : Symbol} {token : Token}
    (kind : token.kind = .symbol symbol) {rest : List Token}
    {next : List Token → Except SyntaxFault α} {expected : Except SyntaxFault α}
    (there : Comes deep (next rest) expected) :
    Comes deep (expect symbol (token :: rest) >>= next) expected := by
  rw [Expression.expect, if_pos kind]
  exact there

theorem skip_next {symbol : Symbol} {token : Token} (kind : token.kind = .symbol symbol)
    (rest : List Token) : skip? symbol (token :: rest) = some rest := by
  rw [skip?, if_pos kind]

theorem skip_other {symbol other : Symbol} {token : Token} (kind : token.kind = .symbol other)
    (apart : other ≠ symbol) (rest : List Token) : skip? symbol (token :: rest) = none := by
  rw [skip?, if_neg]
  intro same
  rw [kind] at same
  exact apart (TokenKind.symbol.inj same)

theorem follows_primary {deep : Prop} {inner : Level} {kinds : List TokenKind} {tree : Tree}
    (read : ∀ list rest, list.map Token.kind = kinds →
      Comes deep (primary inner (list ++ rest)) (.ok (tree, rest))) :
    Follows deep inner kinds tree := by
  intro list rest spelled
  exact ⟨rest.length, Nat.le_refl _, (read list rest spelled).bind_ok (.inl rfl)⟩

/-- A tree whose tokens are read at its own place, when there is room for its levels. -/
def ReadableInPlace (tree : Tree) : Prop :=
  ∀ room, ReadsAt (room + 1 < tree.levels) (level room) tree.rank tree.kinds tree

theorem readable_of_own {tree : Tree} (headed : Headed tree.rank tree.kinds)
    (own : ReadableInPlace tree) : Readable tree := by
  intro room place le
  unfold Tree.kindsAt enclosed Tree.levelsAt enclosedLevels
  by_cases looser : tree.rank < place
  · rw [if_pos looser, if_pos looser]
    have loosest := inner_expression fun room =>
      (own room).places_down (Nat.zero_le _) tree.rank_le headed
    -- in parentheses any tree is a piece
    refine ReadsAt.places_down le (Nat.le_refl 8) ⟨_, _, rfl, trivial⟩ (follows_primary ?_)
    intro list rest spelled
    obtain ⟨⟨_, place⟩, others, rfl, rfl, behind⟩ := List.map_eq_cons_iff.mp spelled
    obtain ⟨inside, last, rfl, within, shut⟩ := List.map_eq_append_iff.mp behind
    obtain ⟨close, nothing, rfl, kind, empty⟩ := List.map_eq_cons_iff.mp shut
    obtain rfl := List.map_eq_nil_iff.mp empty
    rw [List.cons_append, List.append_assoc, List.singleton_append, primary]
    have closed := closed_of_none (by rfl) kind rest 0
    have inner := (loosest room inside _ within closed).imp Nat.succ_lt_succ
    exact inner.bind_ok (Comes.after_expect kind (.inl rfl))
  · rw [if_neg looser, if_neg looser]
    exact (own room).places_down (by omega) tree.rank_le headed

theorem furtherKinds_length (items : List Tree) : items.length ≤ (furtherKinds items).length := by
  induction items with
  | nil => exact Nat.le_refl 0
  | cons item rest ih =>
    rw [furtherKinds, List.length_cons, List.length_cons, List.length_append]
    omega

section Items
variable {deep : Prop} {parser : Parser Tree} {closing : Symbol}

theorem itemsFrom_reads (quiet : closing.level? = none) (apart : closing ≠ .comma)
    {items : List Tree} (read : ∀ item ∈ items, Finishes deep parser 0 item.kinds item) {fuel : Nat}
    {first : Tree} (begun : Finishes deep parser 0 first.kinds first) (enough : items.length < fuel)
    {list : List Token} (rest : List Token)
    (spelled : list.map Token.kind = first.kinds ++ furtherKinds items ++ [.symbol closing]) :
    Comes deep (itemsFrom parser closing fuel (list ++ rest)) (.ok (first :: items, rest)) := by
  induction items generalizing first fuel list with
  | nil =>
    cases fuel with
    | zero => exact absurd enough (Nat.not_lt_zero _)
    | succ fuel =>
      rw [furtherKinds, List.append_nil] at spelled
      obtain ⟨inside, last, rfl, within, shut⟩ := List.map_eq_append_iff.mp spelled
      obtain ⟨close, nothing, rfl, kind, empty⟩ := List.map_eq_cons_iff.mp shut
      obtain rfl := List.map_eq_nil_iff.mp empty
      rw [List.append_assoc, List.singleton_append, itemsFrom]
      refine (begun inside _ within (closed_of_none quiet kind rest 0)).bind_ok ?_
      dsimp only
      rw [skip_other kind apart]
      exact Comes.after_expect kind (.inl rfl)
  | cons item items ih =>
    cases fuel with
    | zero => exact absurd enough (Nat.not_lt_zero _)
    | succ fuel =>
      obtain ⟨here, later⟩ := List.forall_mem_cons.mp read
      rw [furtherKinds, List.append_assoc, List.cons_append] at spelled
      obtain ⟨inside, last, rfl, within, behind⟩ := List.map_eq_append_iff.mp spelled
      obtain ⟨comma, others, rfl, kind, further⟩ := List.map_eq_cons_iff.mp behind
      rw [List.append_assoc, List.cons_append, itemsFrom]
      refine (begun inside _ within (closed_of_none (by rfl) kind _ 0)).bind_ok ?_
      dsimp only
      rw [skip_next kind]
      exact (ih later here (Nat.lt_of_succ_lt_succ enough) further).bind_ok (.inl rfl)

theorem items_reads (quiet : closing.level? = none) (apart : closing ≠ .comma)
    (shut : ¬ Opens 0 (.symbol closing)) {items : List Tree}
    (read : ∀ item ∈ items, Finishes deep parser 0 item.kinds item)
    (headed : ∀ item ∈ items, Headed item.rank item.kinds) {list : List Token} (rest : List Token)
    (spelled : list.map Token.kind = itemKinds items ++ [.symbol closing]) :
    Comes deep (Expression.items parser closing (list ++ rest)) (.ok (items, rest)) := by
  cases items with
  | nil =>
    obtain ⟨close, nothing, rfl, kind, empty⟩ := List.map_eq_cons_iff.mp spelled
    obtain rfl := List.map_eq_nil_iff.mp empty
    rw [List.singleton_append, Expression.items, skip_next kind]
    exact .inl rfl
  | cons first items =>
    rw [itemKinds] at spelled
    have opening : Headed 0 (first.kinds ++ furtherKinds items ++ [.symbol closing]) :=
      (((headed first (by simp)).mono (Nat.zero_le _)).append _).append _
    obtain ⟨here, later⟩ := List.forall_mem_cons.mp read
    rw [Expression.items, opening.skip?_eq_none closing shut spelled]
    refine itemsFrom_reads quiet apart later here ?_ rest spelled
    have size := congrArg List.length spelled
    have many := furtherKinds_length items
    simp only [List.length_map, List.length_append, List.length_cons, List.length_nil] at size ⊢
    omega

end Items

section Nodes
variable {deep : Prop} {inner : Level}

theorem follows_literal (value : Literal) : Follows deep inner [.literal value] (.literal value) := by
  refine follows_primary ?_
  intro list rest spelled
  obtain ⟨⟨_, place⟩, nothing, rfl, rfl, empty⟩ := List.map_eq_cons_iff.mp spelled
  obtain rfl := List.map_eq_nil_iff.mp empty
  exact .inl rfl

theorem follows_name (name : Text) : Follows deep inner [.name name] (.name name) := by
  refine follows_primary ?_
  intro list rest spelled
  obtain ⟨⟨_, place⟩, nothing, rfl, rfl, empty⟩ := List.map_eq_cons_iff.mp spelled
  obtain rfl := List.map_eq_nil_iff.mp empty
  exact .inl rfl

theorem follows_list {items : List Tree}
    (read : ∀ list rest, list.map Token.kind = itemKinds items ++ [.symbol .closeBracket] →
      Comes deep (inner.listItems (list ++ rest)) (.ok (items, rest))) :
    Follows deep inner (Tree.list items).kinds (.list items) := by
  refine follows_primary ?_
  intro list rest spelled
  rw [Tree.kinds] at spelled
  obtain ⟨⟨_, place⟩, inside, rfl, rfl, within⟩ := List.map_eq_cons_iff.mp spelled
  rw [List.cons_append, primary]
  exact (read inside rest within).bind_ok (.inl rfl)

theorem Follows.read_suffix {kinds : List TokenKind} {tree next : Tree}
    (read : Follows deep inner kinds tree) {more : List TokenKind} (some : more ≠ [])
    (step : ∀ list rest, list.map Token.kind = more → ∀ fuel,
      Comes deep (postfixFrom inner (fuel + 1) tree (list ++ rest))
        (postfixFrom inner fuel next rest)) :
    Follows deep inner (kinds ++ more) next := by
  intro list rest spelled
  obtain ⟨before, behind, rfl, here, there⟩ := List.map_eq_append_iff.mp spelled
  obtain ⟨fuel, enough, begun⟩ := read before (behind ++ rest) here
  have size := congrArg List.length there
  have positive := List.length_pos_iff.mpr some
  rw [List.length_map] at size
  rw [List.length_append] at enough
  cases fuel with
  | zero => omega
  | succ fuel =>
    rw [List.append_assoc]
    exact ⟨fuel, by omega, begun.trans (step behind rest there fuel)⟩

theorem Follows.read_member {kinds : List TokenKind} {object : Tree}
    (read : Follows deep inner kinds object) (property : Text) :
    Follows deep inner (kinds ++ [.symbol .dot, .name property]) (.member object property) := by
  refine read.read_suffix (by simp) ?_
  intro list rest spelled fuel
  obtain ⟨dot, others, rfl, kind, behind⟩ := List.map_eq_cons_iff.mp spelled
  obtain ⟨⟨_, place⟩, nothing, rfl, rfl, empty⟩ := List.map_eq_cons_iff.mp behind
  obtain rfl := List.map_eq_nil_iff.mp empty
  rw [List.cons_append, postfixFrom, skip_next kind]
  exact .inl rfl

theorem Follows.read_index {kinds : List TokenKind} {object place : Tree}
    (read : Follows deep inner kinds object)
    (inside : Finishes deep inner.expression 0 place.kinds place) :
    Follows deep inner (kinds ++ .symbol .openBracket :: (place.kinds ++ [.symbol .closeBracket]))
      (.index object place) := by
  refine read.read_suffix (by simp) ?_
  intro list rest spelled fuel
  obtain ⟨bracket, others, rfl, kind, behind⟩ := List.map_eq_cons_iff.mp spelled
  obtain ⟨between, last, rfl, within, shut⟩ := List.map_eq_append_iff.mp behind
  obtain ⟨close, nothing, rfl, closes, empty⟩ := List.map_eq_cons_iff.mp shut
  obtain rfl := List.map_eq_nil_iff.mp empty
  rw [List.cons_append, List.append_assoc, List.singleton_append, postfixFrom, skip_next kind,
    skip_other kind (by decide)]
  refine (inside between _ within (closed_of_none (by rfl) closes rest 0)).bind_ok ?_
  exact Comes.after_expect closes (.inl rfl)

theorem Follows.read_call {kinds : List TokenKind} {callee : Tree} {arguments : List Tree}
    (read : Follows deep inner kinds callee)
    (inside : ∀ list rest, list.map Token.kind = itemKinds arguments ++ [.symbol .closeParen] →
      Comes deep (Expression.items inner.expression .closeParen (list ++ rest))
        (.ok (arguments, rest))) :
    Follows deep inner
      (kinds ++ .symbol .openParen :: (itemKinds arguments ++ [.symbol .closeParen]))
      (.call callee arguments) := by
  refine read.read_suffix (by simp) ?_
  intro list rest spelled fuel
  obtain ⟨paren, others, rfl, kind, behind⟩ := List.map_eq_cons_iff.mp spelled
  rw [List.cons_append, postfixFrom, skip_next kind, skip_other kind (by decide),
    skip_other kind (by decide)]
  exact (inside others rest behind).bind_ok (.inl rfl)

theorem raises_signed {operand : Tree} {kinds : List TokenKind}
    (read : Finishes deep inner.signed 7 kinds operand) (sign : Sign) :
    Raises deep inner (.symbol sign.symbol :: kinds) (.signed sign operand) := by
  intro list rest spelled closed fuel enough
  obtain ⟨⟨_, place⟩, others, rfl, rfl, behind⟩ := List.map_eq_cons_iff.mp spelled
  cases fuel with
  | zero => exact absurd enough (Nat.not_lt_zero _)
  | succ fuel =>
    have taken : operator? sign? (⟨.symbol sign.symbol, place⟩ :: (others ++ rest)) =
        some (sign, others ++ rest) := by
      cases sign with
      | _ => rfl
    rw [List.cons_append, signedFrom, taken]
    exact (read others rest behind closed).bind_ok (.inl rfl)

theorem raises_power {left right : Tree} {leftKinds rightKinds : List TokenKind}
    (headed : Headed 8 leftKinds) (first : Follows deep inner leftKinds left)
    (second : Raises deep inner rightKinds right) :
    Raises deep inner (leftKinds ++ .symbol .power :: rightKinds)
      (.arithmetic .power left right) := by
  intro list rest spelled closed fuel enough
  obtain ⟨before, behind, rfl, here, there⟩ := List.map_eq_append_iff.mp spelled
  obtain ⟨power, after, rfl, kind, others⟩ := List.map_eq_cons_iff.mp there
  rw [List.length_append, List.length_cons] at enough
  cases fuel with
  | zero => exact absurd enough (Nat.not_lt_zero _)
  | succ fuel =>
    rw [List.append_assoc, List.cons_append, signedFrom, headed.sign?_eq_none here]
    obtain ⟨more, _, followed⟩ := first before (power :: (after ++ rest)) here
    have next : Closed 8 (power :: (after ++ rest)) := by
      refine closed_cons kind ?_
      intro level found
      cases found
      decide
    rw [postfixFrom_closed (Nat.le_refl 8) next] at followed
    refine followed.bind_ok ?_
    dsimp only
    rw [skip_next kind]
    exact (second after rest others closed fuel (by omega)).bind_ok (.inl rfl)

theorem finishes_negation {operand : Tree} {kinds : List TokenKind}
    (read : Finishes deep inner.negation 3 kinds operand) :
    Finishes deep (negation inner) 3 (.symbol .not :: kinds) (.negation operand) := by
  intro list rest spelled closed
  obtain ⟨mark, others, rfl, kind, behind⟩ := List.map_eq_cons_iff.mp spelled
  rw [List.cons_append, Expression.negation, skip_next kind]
  exact (read others rest behind closed).bind_ok (.inl rfl)

theorem comparison_symbol (operator : Comparison) :
    comparison? operator.symbol = some operator ∧ operator.symbol.level? = some 4 := by
  cases operator with
  | _ => exact ⟨rfl, rfl⟩

theorem comparisonsFrom_reads {operand : Parser Tree} {parts : List (Comparison × Tree)}
    (read : ∀ part ∈ parts, Finishes deep operand 5 (part.2.kindsAt 5) part.2) {fuel : Nat}
    (enough : parts.length ≤ fuel) {list rest : List Token}
    (spelled : list.map Token.kind = comparedKinds parts) (closed : Closed 4 rest) :
    Closed 5 (list ++ rest) ∧
      Comes deep (comparisonsFrom operand fuel (list ++ rest)) (.ok (parts, rest)) := by
  induction parts generalizing fuel list with
  | nil =>
    obtain rfl := List.map_eq_nil_iff.mp spelled
    refine ⟨closed.mono (by decide), .inl ?_⟩
    cases fuel with
    | zero => rfl
    | succ fuel =>
      rw [List.nil_append, comparisonsFrom, closed.operator?_eq_none comparison_level (Nat.le_refl 4)]
  | cons part parts ih =>
    obtain ⟨operator, tree⟩ := part
    obtain ⟨here, later⟩ := List.forall_mem_cons.mp read
    obtain ⟨named, known⟩ := comparison_symbol operator
    rw [comparedKinds] at spelled
    obtain ⟨⟨_, place⟩, others, rfl, rfl, behind⟩ := List.map_eq_cons_iff.mp spelled
    obtain ⟨inside, last, rfl, within, further⟩ := List.map_eq_append_iff.mp behind
    have next : Closed 5 (⟨.symbol operator.symbol, place⟩ :: (inside ++ last ++ rest)) := by
      refine closed_cons rfl ?_
      intro level found
      rw [known] at found
      cases found
      decide
    refine ⟨next, ?_⟩
    cases fuel with
    | zero => exact absurd enough (Nat.not_succ_le_zero _)
    | succ fuel =>
      obtain ⟨shut, compared⟩ := ih later (Nat.le_of_succ_le_succ enough) further
      have taken : operator? comparison?
          (⟨.symbol operator.symbol, place⟩ :: (inside ++ last ++ rest)) =
            some (operator, inside ++ (last ++ rest)) := by
        simp [operator?, named]
      rw [List.cons_append, comparisonsFrom, taken]
      refine (here inside _ within shut).bind_ok ?_
      exact compared.bind_ok (.inl rfl)

theorem comparedKinds_length (parts : List (Comparison × Tree)) :
    parts.length ≤ (comparedKinds parts).length := by
  induction parts with
  | nil => exact Nat.le_refl 0
  | cons part rest ih =>
    rw [comparedKinds, List.length_cons, List.length_cons, List.length_append]
    omega

theorem finishes_comparison {first : Tree} {kinds : List TokenKind}
    {parts : List (Comparison × Tree)} (begun : Finishes deep (sum inner) 5 kinds first)
    (some : parts ≠ [])
    (read : ∀ part ∈ parts, Finishes deep (sum inner) 5 (part.2.kindsAt 5) part.2) :
    Finishes deep (comparison inner) 4 (kinds ++ comparedKinds parts)
      (.comparison first parts) := by
  intro list rest spelled closed
  obtain ⟨before, behind, rfl, here, there⟩ := List.map_eq_append_iff.mp spelled
  have size := congrArg List.length there
  have many := comparedKinds_length parts
  rw [List.length_map] at size
  have enough : parts.length ≤ (behind ++ rest).length := by
    rw [List.length_append]
    omega
  obtain ⟨shut, compared⟩ := comparisonsFrom_reads read enough there closed
  rw [List.append_assoc]
  refine (begun before _ here shut).bind_ok ?_
  refine compared.bind_ok (.inl ?_)
  cases parts with
  | nil => exact absurd rfl some
  | cons part parts => rfl

theorem finishes_conditional {test consequent alternate : Tree} {kinds : List TokenKind}
    (first : Finishes deep (alternatives inner) 1 kinds test)
    (second : Finishes deep inner.expression 0 consequent.kinds consequent)
    (third : Finishes deep inner.expression 0 alternate.kinds alternate) :
    Finishes deep (expression inner) 0
      (kinds ++ .symbol .question :: (consequent.kinds ++ .symbol .colon :: alternate.kinds))
      (.conditional test consequent alternate) := by
  intro list rest spelled closed
  obtain ⟨before, behind, rfl, here, there⟩ := List.map_eq_append_iff.mp spelled
  obtain ⟨mark, branches, rfl, asks, both⟩ := List.map_eq_cons_iff.mp there
  obtain ⟨between, last, rfl, within, otherwise⟩ := List.map_eq_append_iff.mp both
  obtain ⟨colon, after, rfl, parts, others⟩ := List.map_eq_cons_iff.mp otherwise
  have next : Closed 1 (mark :: (between ++ colon :: after ++ rest)) := by
    refine closed_cons asks ?_
    intro level found
    cases found
    decide
  rw [List.append_assoc, List.cons_append]
  refine (first before _ here next).bind_ok ?_
  dsimp only
  rw [skip_next asks, List.append_assoc, List.cons_append]
  refine (second between _ within (closed_of_none (by rfl) parts _ 0)).bind_ok ?_
  refine Comes.after_expect parts ?_
  exact (third after rest others closed).bind_ok (.inl rfl)

end Nodes

/-! Each kind of tree at its own place, when its parts are read at every place -/

theorem list_in_place {items : List Tree} (headed : ∀ item ∈ items, Headed item.rank item.kinds)
    (read : ∀ item ∈ items, Readable item) : ReadableInPlace (.list items) := by
  intro room
  refine follows_list ?_
  intro list rest spelled
  rw [Tree.levels]
  cases room with
  | zero => exact .inr ⟨by omega, rfl⟩
  | succ room =>
    refine items_reads (by rfl) (by decide) (by simp [Opens]) ?_ headed rest spelled
    intro item member
    refine ((read item member).reads_expression room).imp fun deep => ?_
    have within := levels_le_itemLevels member
    omega

theorem member_in_place {object : Tree} {property : Text} (read : Readable object) :
    ReadableInPlace (.member object property) := by
  intro room
  rw [Tree.kinds, Tree.levels]
  exact Follows.read_member (read room 8 (by decide)) _

theorem index_in_place {object place : Tree} (first : Readable object) (second : Readable place) :
    ReadableInPlace (.index object place) := by
  intro room
  rw [Tree.kinds, Tree.levels]
  refine Follows.read_index ((first room 8 (by decide)).imp fun deep => ?_)
    ((second.reads_expression room).imp fun deep => ?_)
  · exact Nat.lt_of_lt_of_le deep (Nat.le_max_left _ _)
  · exact Nat.lt_of_lt_of_le (Nat.succ_lt_succ deep) (Nat.le_max_right _ _)

theorem call_in_place {callee : Tree} {arguments : List Tree} (first : Readable callee)
    (headed : ∀ item ∈ arguments, Headed item.rank item.kinds)
    (read : ∀ item ∈ arguments, Readable item) : ReadableInPlace (.call callee arguments) := by
  intro room
  rw [Tree.kinds, Tree.levels]
  refine Follows.read_call ((first room 8 (by decide)).imp fun deep => ?_) ?_
  · exact Nat.lt_of_lt_of_le deep (Nat.le_max_left _ _)
  · intro list rest spelled
    refine items_reads (by rfl) (by decide) (by simp [Opens]) ?_ headed rest spelled
    intro item member
    refine ((read item member).reads_expression room).imp fun deep => ?_
    have within := Nat.lt_of_lt_of_le deep (levels_le_itemLevels member)
    exact Nat.lt_of_lt_of_le (Nat.succ_lt_succ within) (Nat.le_max_right _ _)

theorem signed_in_place {operand : Tree} (read : Readable operand) (sign : Sign) :
    ReadableInPlace (.signed sign operand) := by
  intro room
  rw [Tree.kinds, Tree.levels]
  exact raises_signed ((read.reads_signed room).imp Nat.succ_lt_succ) _

theorem negation_in_place {operand : Tree} (read : Readable operand) :
    ReadableInPlace (.negation operand) := by
  intro room
  rw [Tree.kinds, Tree.levels]
  exact finishes_negation ((read.reads_negation room).imp Nat.succ_lt_succ)

theorem arithmetic_in_place {left right : Tree} {operator : Arithmetic}
    (headed : Headed 8 (left.kindsAt 8)) (first : Readable left) (second : Readable right) :
    ReadableInPlace (.arithmetic operator left right) := by
  intro room
  -- each operand is within the levels of the whole at its own place
  have firstAt := (first room operator.leftPlace operator.places_le.1).imp
    fun deep => Nat.lt_of_lt_of_le deep (Nat.le_max_left _ (right.levelsAt operator.rightPlace))
  have secondAt := (second room operator.rightPlace operator.places_le.2).imp
    fun deep => Nat.lt_of_lt_of_le deep (Nat.le_max_right (left.levelsAt operator.leftPlace) _)
  rw [Tree.kinds, Tree.levels]
  cases operator with
  | add => exact begins_operator sum_level .add rfl firstAt (Begins.finishes product_level secondAt)
  | subtract =>
    exact begins_operator sum_level .subtract rfl firstAt (Begins.finishes product_level secondAt)
  | multiply => exact begins_operator product_level .multiply rfl firstAt (Raises.finishes secondAt)
  | divide => exact begins_operator product_level .divide rfl firstAt (Raises.finishes secondAt)
  | floorDivide =>
    exact begins_operator product_level .floorDivide rfl firstAt (Raises.finishes secondAt)
  | modulo => exact begins_operator product_level .modulo rfl firstAt (Raises.finishes secondAt)
  | power => exact raises_power headed firstAt secondAt

theorem comparison_in_place {first : Tree} {parts : List (Comparison × Tree)} (some : parts ≠ [])
    (begins : Readable first) (read : ∀ part ∈ parts, Readable part.2) :
    ReadableInPlace (.comparison first parts) := by
  intro room
  rw [Tree.kinds, Tree.levels]
  refine finishes_comparison (Begins.finishes sum_level
    ((begins room 5 (by decide)).imp fun deep => ?_)) some ?_
  · exact Nat.lt_of_lt_of_le deep (Nat.le_max_left _ _)
  · intro part member
    refine Begins.finishes sum_level ((read part member room 5 (by decide)).imp fun deep => ?_)
    have within := Nat.lt_of_lt_of_le deep (levels_le_comparedLevels member)
    exact Nat.lt_of_lt_of_le within (Nat.le_max_right _ _)

theorem conjunction_in_place {left right : Tree} (first : Readable left)
    (second : Readable right) : ReadableInPlace (.conjunction left right) := by
  intro room
  rw [Tree.kinds, Tree.levels]
  refine begins_operator conjunction_level () rfl
    ((first room 2 (by decide)).imp fun deep => ?_)
    ((second room 3 (by decide)).imp fun deep => ?_)
  · exact Nat.lt_of_lt_of_le deep (Nat.le_max_left _ _)
  · exact Nat.lt_of_lt_of_le deep (Nat.le_max_right _ _)

theorem disjunction_in_place {left right : Tree} (first : Readable left)
    (second : Readable right) : ReadableInPlace (.disjunction left right) := by
  intro room
  rw [Tree.kinds, Tree.levels]
  refine begins_operator disjunction_level () rfl
    ((first room 1 (by decide)).imp fun deep => ?_)
    (Begins.finishes conjunction_level ((second room 2 (by decide)).imp fun deep => ?_))
  · exact Nat.lt_of_lt_of_le deep (Nat.le_max_left _ _)
  · exact Nat.lt_of_lt_of_le deep (Nat.le_max_right _ _)

theorem conditional_in_place {test consequent alternate : Tree} (first : Readable test)
    (second : Readable consequent) (third : Readable alternate) :
    ReadableInPlace (.conditional test consequent alternate) := by
  intro room
  rw [Tree.kinds, Tree.levels]
  refine finishes_conditional
    (Begins.finishes disjunction_level ((first room 1 (by decide)).imp fun deep => ?_))
    ((second.reads_expression room).imp fun deep => ?_)
    ((third.reads_expression room).imp fun deep => ?_)
  · exact Nat.lt_of_lt_of_le deep (Nat.le_max_left _ _)
  · exact Nat.lt_of_lt_of_le (Nat.succ_lt_succ deep)
      (Nat.le_trans (Nat.le_max_left _ _) (Nat.le_max_right _ _))
  · exact Nat.lt_of_lt_of_le (Nat.succ_lt_succ deep)
      (Nat.le_trans (Nat.le_max_right _ _) (Nat.le_max_right _ _))

/-- A well formed tree is read back from its tokens at every place, or there is no room for it. -/
theorem readable_of_formed {tree : Tree} (formed : Formed plain tree) : Readable tree := by
  have headed {parts : List Tree} (all : ∀ part ∈ parts, Formed plain part) :
      ∀ part ∈ parts, Headed part.rank part.kinds := fun part member => headed_kinds (all part member)
  induction formed with
  | literal fits => exact readable_of_own (headed_kinds (.literal fits)) fun _ => follows_literal _
  | name proper => exact readable_of_own ⟨_, _, rfl, trivial⟩ fun _ => follows_name _
  | list all read =>
    exact readable_of_own (headed_kinds (.list all)) (list_in_place (headed all) read)
  | member whole proper read =>
    exact readable_of_own (headed_kinds (.member whole proper)) (member_in_place read)
  | index whole inside first second =>
    exact readable_of_own (headed_kinds (.index whole inside)) (index_in_place first second)
  | call whole all first read =>
    exact readable_of_own (headed_kinds (.call whole all)) (call_in_place first (headed all) read)
  | signed inside read =>
    exact readable_of_own (headed_kinds (.signed inside)) (signed_in_place read _)
  | negation inside read =>
    exact readable_of_own (headed_kinds (.negation inside)) (negation_in_place read)
  | arithmetic one two first second =>
    exact readable_of_own (headed_kinds (.arithmetic one two))
      (arithmetic_in_place ((headed_kinds one).enclosed 8) first second)
  | comparison inside some all first read =>
    exact readable_of_own (headed_kinds (.comparison inside some all))
      (comparison_in_place some first read)
  | conjunction one two first second =>
    exact readable_of_own (headed_kinds (.conjunction one two)) (conjunction_in_place first second)
  | disjunction one two first second =>
    exact readable_of_own (headed_kinds (.disjunction one two)) (disjunction_in_place first second)
  | conditional one two three first second third =>
    exact readable_of_own (headed_kinds (.conditional one two three))
      (conditional_in_place first second third)

end VirtualInstrument.Expression
