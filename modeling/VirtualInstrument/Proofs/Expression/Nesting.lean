import VirtualInstrument.Expression.Reader
import VirtualInstrument.Proofs.Outcomes
/- How deep an accepted expression nests. The parsers of a level have one level less room for the
   parts that open a level; so whatever a parser returns fits into the room it has, and so do the
   brackets among the tokens it takes. -/
namespace VirtualInstrument.Expression

/-- The parts of a tree. A part that the reader takes at a deeper level counts one, any other part
    nothing. -/
@[simp] def Tree.parts : Tree → List (Nat × Tree)
  | .literal _ => []
  | .name _ => []
  | .list items => items.map fun item => (1, item)
  | .member object _ => [(0, object)]
  | .index object place => [(0, object), (1, place)]
  | .call callee arguments => (0, callee) :: arguments.map fun argument => (1, argument)
  | .signed _ operand => [(1, operand)]
  | .negation operand => [(1, operand)]
  | .arithmetic _ left right => [(0, left), (0, right)]
  | .comparison first rest => (0, first) :: rest.map fun link => (0, link.2)
  | .conjunction left right => [(0, left), (0, right)]
  | .disjunction left right => [(0, left), (0, right)]
  | .conditional test consequent alternate => [(0, test), (1, consequent), (1, alternate)]

/-- A way from the root of a tree to one of its nodes, with the deeper levels it leads into. -/
inductive Tree.Way : Tree → Nat → Prop
  | root (tree : Tree) : Way tree 0
  | down {tree part : Tree} {weight levels : Nat} (listed : (weight, part) ∈ tree.parts)
      (way : Way part levels) : Way tree (weight + levels)

def Tree.Fits (room : Nat) (tree : Tree) : Prop := ∀ levels, tree.Way levels → levels < room

theorem Tree.Fits.mono {room more : Nat} {tree : Tree} (fits : tree.Fits room) (le : room ≤ more) :
    tree.Fits more := fun levels way => Nat.lt_of_lt_of_le (fits levels way) le

theorem Tree.fits_of_parts {room : Nat} {tree : Tree}
    (each : ∀ part ∈ tree.parts, part.2.Fits (room + 1 - part.1)) : tree.Fits (room + 1) := by
  intro levels way
  cases way with
  | root => exact Nat.succ_pos room
  | down listed way =>
    have below := each _ listed _ way
    omega

section Runs
variable {σ α : Type} {step : σ → α → σ} {good : σ → Prop}

/-- Every state of a run over a list is good, the first and the last one included. -/
def Throughout (step : σ → α → σ) (good : σ → Prop) : σ → List α → Prop
  | s, [] => good s
  | s, a :: rest => good s ∧ Throughout step good (step s a) rest

theorem throughout_append (s : σ) (one other : List α) :
    Throughout step good s (one ++ other) ↔
      Throughout step good s one ∧ Throughout step good (one.foldl step s) other := by
  induction one generalizing s with
  | nil =>
    cases other with
    | nil => simp [Throughout]
    | cons a rest => simp [Throughout]
  | cons a one ih => simp [Throughout, ih, and_assoc]

theorem Throughout.start {s : σ} {list : List α} (all : Throughout step good s list) : good s := by
  cases list with
  | nil => exact all
  | cons a rest => exact all.1

theorem Throughout.take {s : σ} {list : List α} (all : Throughout step good s list) (n : Nat) :
    good ((list.take n).foldl step s) := by
  induction list generalizing s n with
  | nil => rwa [List.take_nil]
  | cons a rest ih =>
    cases n with
    | zero => exact all.1
    | succ n => exact ih all.2 n

theorem Throughout.finish {s : σ} {list : List α} (all : Throughout step good s list) :
    good (list.foldl step s) := by
  simpa using all.take list.length

theorem Throughout.imp {other : σ → Prop} (weaker : ∀ s, good s → other s) {s : σ} {list : List α}
    (all : Throughout step good s list) : Throughout step other s list := by
  induction list generalizing s with
  | nil => exact weaker s all
  | cons a rest ih => exact ⟨weaker s all.1, ih all.2⟩

end Runs

def opened (depth : Nat) (token : Token) : Nat :=
  match token.kind with
  | .symbol .openParen => depth + 1
  | .symbol .openBracket => depth + 1
  | .symbol .closeParen => depth - 1
  | .symbol .closeBracket => depth - 1
  | _ => depth

/-- Tokens that close the brackets they open, and never have more than a number of them open. -/
structure Enclosed (height : Nat) (list : List Token) : Prop where
  closed : ∀ depth, list.foldl opened depth = depth
  bounded : ∀ depth, Throughout opened (· ≤ depth + height) depth list

section Brackets
variable {height : Nat} {list middle rest : List Token}

theorem enclosed_nil (height : Nat) : Enclosed height [] :=
  ⟨fun _ => rfl, fun depth => Nat.le_add_right depth height⟩

theorem Enclosed.append {one other : List Token} (first : Enclosed height one)
    (second : Enclosed height other) : Enclosed height (one ++ other) := by
  refine ⟨fun depth => ?_, fun depth => ?_⟩
  · rw [List.foldl_append, first.closed, second.closed]
  · rw [throughout_append, first.closed]
    exact ⟨first.bounded depth, second.bounded depth⟩

theorem enclosed_single {token : Token} (plain : ∀ depth, opened depth token = depth)
    (height : Nat) : Enclosed height [token] := by
  refine ⟨plain, fun depth => ⟨Nat.le_add_right depth height, ?_⟩⟩
  rw [plain]
  exact Nat.le_add_right depth height

theorem Enclosed.in_brackets {first last : Token} (inside : Enclosed height list)
    (opens : ∀ depth, opened depth first = depth + 1)
    (closes : ∀ depth, opened (depth + 1) last = depth) :
    Enclosed (height + 1) (first :: (list ++ [last])) := by
  refine ⟨fun depth => ?_, fun depth => ⟨Nat.le_add_right depth _, ?_⟩⟩
  · rw [List.foldl_cons, opens, List.foldl_append, inside.closed]
    exact closes depth
  · rw [opens, throughout_append, inside.closed]
    refine ⟨(inside.bounded (depth + 1)).imp fun _ bound => by omega, ?_⟩
    have back : opened (depth + 1) last = depth := closes depth
    exact ⟨by omega, by rw [back]; exact Nat.le_add_right depth _⟩

theorem Enclosed.mono {more : Nat} (enclosed : Enclosed height list) (le : height ≤ more) :
    Enclosed more list :=
  ⟨enclosed.closed, fun depth => (enclosed.bounded depth).imp fun _ bound => by omega⟩

def Takes (height : Nat) (list rest : List Token) : Prop :=
  ∃ taken, list = taken ++ rest ∧ Enclosed height taken

theorem Takes.refl (height : Nat) (list : List Token) : Takes height list list :=
  ⟨[], rfl, enclosed_nil height⟩

theorem Takes.trans (first : Takes height list middle) (second : Takes height middle rest) :
    Takes height list rest := by
  obtain ⟨one, rfl, before⟩ := first
  obtain ⟨other, rfl, behind⟩ := second
  exact ⟨one ++ other, (List.append_assoc one other rest).symm, before.append behind⟩

theorem Takes.mono {more : Nat} (takes : Takes height list rest) (le : height ≤ more) :
    Takes more list rest := by
  obtain ⟨taken, whole, enclosed⟩ := takes
  exact ⟨taken, whole, enclosed.mono le⟩

theorem takes_token {token : Token} (plain : ∀ depth, opened depth token = depth)
    (height : Nat) (rest : List Token) : Takes height (token :: rest) rest :=
  ⟨[token], rfl, enclosed_single plain height⟩

def Symbol.Plain (symbol : Symbol) : Prop :=
  symbol ≠ .openParen ∧ symbol ≠ .openBracket ∧ symbol ≠ .closeParen ∧ symbol ≠ .closeBracket

instance (symbol : Symbol) : Decidable symbol.Plain := inferInstanceAs (Decidable (_ ∧ _))

theorem opened_plain {symbol : Symbol} (plain : symbol.Plain) {token : Token}
    (kind : token.kind = .symbol symbol) (depth : Nat) : opened depth token = depth := by
  obtain ⟨first, second, third, fourth⟩ := plain
  rw [opened, kind]
  cases symbol with
  | openParen => exact absurd rfl first
  | openBracket => exact absurd rfl second
  | closeParen => exact absurd rfl third
  | closeBracket => exact absurd rfl fourth
  | _ => rfl

theorem skip?_some {symbol : Symbol} (taken : skip? symbol list = some rest) :
    ∃ token, token.kind = .symbol symbol ∧ list = token :: rest := by
  cases list with
  | nil => cases taken
  | cons token others =>
    rw [skip?] at taken
    split at taken
    · rename_i kind
      cases taken
      exact ⟨token, kind, rfl⟩
    · cases taken

theorem expect_ok {symbol : Symbol} (taken : expect symbol list = .ok rest) :
    ∃ token, token.kind = .symbol symbol ∧ list = token :: rest := by
  cases list with
  | nil => cases taken
  | cons token others =>
    rw [expect] at taken
    split at taken
    · rename_i kind
      cases taken
      exact ⟨token, kind, rfl⟩
    · cases taken

theorem operator?_some {ω : Type} {classify : Symbol → Option ω} {operator : ω}
    (taken : operator? classify list = some (operator, rest)) :
    ∃ token symbol, token.kind = .symbol symbol ∧ classify symbol = some operator ∧
      list = token :: rest := by
  cases list with
  | nil => cases taken
  | cons token others =>
    obtain ⟨kind, place⟩ := token
    cases kind with
    | symbol symbol =>
      obtain ⟨found, named, same⟩ := Option.map_eq_some_iff.mp taken
      cases same
      exact ⟨_, symbol, rfl, named, rfl⟩
    | _ => cases taken

theorem takes_skip {symbol : Symbol} (taken : skip? symbol list = some rest)
    (plain : symbol.Plain) (height : Nat) : Takes height list rest := by
  obtain ⟨token, kind, rfl⟩ := skip?_some taken
  exact takes_token (opened_plain plain kind) height rest

theorem takes_expect {symbol : Symbol} (taken : expect symbol list = .ok rest)
    (plain : symbol.Plain) (height : Nat) : Takes height list rest := by
  obtain ⟨token, kind, rfl⟩ := expect_ok taken
  exact takes_token (opened_plain plain kind) height rest

def Bracketless {ω : Type} (classify : Symbol → Option ω) : Prop :=
  ∀ symbol, ¬ symbol.Plain → classify symbol = none

theorem takes_operator {ω : Type} {classify : Symbol → Option ω} {operator : ω}
    (taken : operator? classify list = some (operator, rest)) (none : Bracketless classify)
    (height : Nat) : Takes height list rest := by
  obtain ⟨token, symbol, kind, named, rfl⟩ := operator?_some taken
  have plain : symbol.Plain := Decidable.byContradiction fun bracket => by
    rw [none symbol bracket] at named
    cases named
  exact takes_token (opened_plain plain kind) height rest

theorem bracketless_iff {ω : Type} {classify : Symbol → Option ω} :
    Bracketless classify ↔ classify .openParen = none ∧ classify .openBracket = none ∧
      classify .closeParen = none ∧ classify .closeBracket = none := by
  constructor
  · exact fun none => ⟨none _ (by decide), none _ (by decide), none _ (by decide),
      none _ (by decide)⟩
  · rintro ⟨first, second, third, fourth⟩ symbol bracket
    cases symbol with
    | openParen => exact first
    | openBracket => exact second
    | closeParen => exact third
    | closeBracket => exact fourth
    | _ => exact absurd (by decide) bracket

theorem bracketless_sign : Bracketless sign? := by
  rw [bracketless_iff]
  exact ⟨rfl, rfl, rfl, rfl⟩

theorem bracketless_product : Bracketless product? := by
  rw [bracketless_iff]
  exact ⟨rfl, rfl, rfl, rfl⟩

theorem bracketless_sum : Bracketless sum? := by
  rw [bracketless_iff]
  exact ⟨rfl, rfl, rfl, rfl⟩

theorem bracketless_comparison : Bracketless comparison? := by
  rw [bracketless_iff]
  exact ⟨rfl, rfl, rfl, rfl⟩

theorem bracketless_conjunction : Bracketless conjunction? := by
  rw [bracketless_iff]
  exact ⟨rfl, rfl, rfl, rfl⟩

theorem bracketless_disjunction : Bracketless disjunction? := by
  rw [bracketless_iff]
  exact ⟨rfl, rfl, rfl, rfl⟩

theorem takes_wrap {first last : Token} {opening closing : Symbol}
    (opens : first.kind = .symbol opening) (left : opening = .openParen ∨ opening = .openBracket)
    (inside : Takes height list (last :: rest)) (closes : last.kind = .symbol closing)
    (right : closing = .closeParen ∨ closing = .closeBracket) :
    Takes (height + 1) (first :: list) rest := by
  obtain ⟨taken, rfl, enclosed⟩ := inside
  refine ⟨first :: (taken ++ [last]), by simp, enclosed.in_brackets ?_ ?_⟩
  · intro depth
    rw [opened, opens]
    rcases left with rfl | rfl
    · rfl
    · rfl
  · intro depth
    rw [opened, closes]
    rcases right with rfl | rfl
    · rfl
    · rfl

end Brackets

/-- A parser that returns only what has a property, and takes only tokens that enclose their
    brackets. -/
def Reads {α : Type} (height : Nat) (parser : Parser α) (property : α → Prop) : Prop :=
  ∀ list value rest, parser list = .ok (value, rest) → property value ∧ Takes height list rest

def ReadsUpTo (height : Nat) (closing : Symbol) (parser : Parser (List Tree)) : Prop :=
  ∀ list trees rest, parser list = .ok (trees, rest) → (∀ tree ∈ trees, tree.Fits height) ∧
    ∃ last, last.kind = .symbol closing ∧ Takes height list (last :: rest)

structure Bounded (room : Nat) (inner : Level) : Prop where
  expression : Reads room inner.expression (Tree.Fits room)
  negation : Reads room inner.negation (Tree.Fits room)
  signed : Reads room inner.signed (Tree.Fits room)
  listItems : ReadsUpTo room .closeBracket inner.listItems

section Chains
variable {ω : Type} {classify : Symbol → Option ω} {build : ω → Tree → Tree → Tree}
  {operand : Parser Tree} {height : Nat} {property : Tree → Prop}

theorem reads_chainFrom (reads : Reads height operand property)
    (none : Bracketless classify)
    (builds : ∀ operator left right, property left → property right →
      property (build operator left right))
    (fuel : Nat) {left : Tree} (begun : property left) :
    Reads height (chainFrom classify build operand fuel left) property := by
  induction fuel generalizing left with
  | zero =>
    intro list tree rest whole
    cases whole
    exact ⟨begun, .refl height list⟩
  | succ fuel ih =>
    intro list tree rest whole
    rw [chainFrom] at whole
    split at whole
    · cases whole
      exact ⟨begun, .refl height list⟩
    · rename_i taken
      obtain ⟨⟨right, more⟩, read, whole⟩ := bind_ok whole
      obtain ⟨good, operands⟩ := reads _ _ _ read
      obtain ⟨all, others⟩ := ih (builds _ _ _ begun good) more tree rest whole
      exact ⟨all, (takes_operator taken none height).trans (operands.trans others)⟩

theorem reads_chain (reads : Reads height operand property)
    (none : Bracketless classify)
    (builds : ∀ operator left right, property left → property right →
      property (build operator left right)) :
    Reads height (chain classify build operand) property := by
  intro list tree rest whole
  obtain ⟨⟨first, more⟩, read, whole⟩ := bind_ok whole
  obtain ⟨good, before⟩ := reads _ _ _ read
  obtain ⟨all, behind⟩ := reads_chainFrom reads none builds more.length good _ _ _ whole
  exact ⟨all, before.trans behind⟩

end Chains

theorem readsUpTo_itemsFrom {parser : Parser Tree} {height : Nat}
    (reads : Reads height parser (Tree.Fits height)) (closing : Symbol) (fuel : Nat) :
    ReadsUpTo height closing (itemsFrom parser closing fuel) := by
  induction fuel with
  | zero =>
    intro list trees rest whole
    cases whole
  | succ fuel ih =>
    intro list trees rest whole
    rw [itemsFrom] at whole
    obtain ⟨⟨item, more⟩, read, whole⟩ := bind_ok whole
    obtain ⟨fits, before⟩ := reads _ _ _ read
    dsimp only at whole
    split at whole
    · rename_i taken
      obtain ⟨⟨items, left⟩, further, whole⟩ := bind_ok whole
      obtain ⟨all, last, closes, behind⟩ := ih _ _ _ further
      cases whole
      have comma := takes_skip taken (by decide) height
      exact ⟨List.forall_mem_cons.mpr ⟨fits, all⟩, last, closes,
        before.trans (comma.trans behind)⟩
    · obtain ⟨left, taken, whole⟩ := bind_ok whole
      cases whole
      obtain ⟨last, closes, rfl⟩ := expect_ok taken
      exact ⟨by simpa using fits, last, closes, before⟩

theorem readsUpTo_items {parser : Parser Tree} {height : Nat}
    (reads : Reads height parser (Tree.Fits height)) (closing : Symbol) :
    ReadsUpTo height closing (items parser closing) := by
  intro list trees rest whole
  rw [items] at whole
  split at whole
  · rename_i taken
    cases whole
    obtain ⟨last, closes, rfl⟩ := skip?_some taken
    exact ⟨by simp, last, closes, .refl height _⟩
  · exact readsUpTo_itemsFrom reads closing _ _ _ _ whole

section Places
variable {room : Nat} {inner : Level} (bounded : Bounded room inner)
include bounded

theorem reads_primary : Reads (room + 1) (primary inner) (Tree.Fits (room + 1)) := by
  intro list tree rest whole
  unfold primary at whole
  split at whole
  · cases whole
  · cases whole
    exact ⟨Tree.fits_of_parts (by simp), takes_token (fun _ => rfl) _ _⟩
  · cases whole
    exact ⟨Tree.fits_of_parts (by simp), takes_token (fun _ => rfl) _ _⟩
  · obtain ⟨⟨inside, more⟩, read, whole⟩ := bind_ok whole
    obtain ⟨fits, before⟩ := bounded.expression _ _ _ read
    obtain ⟨left, taken, whole⟩ := bind_ok whole
    cases whole
    obtain ⟨last, closes, rfl⟩ := expect_ok taken
    exact ⟨fits.mono (Nat.le_succ room), takes_wrap rfl (.inl rfl) before closes (.inl rfl)⟩
  · obtain ⟨⟨trees, more⟩, read, whole⟩ := bind_ok whole
    obtain ⟨all, last, closes, before⟩ := bounded.listItems _ _ _ read
    cases whole
    exact ⟨Tree.fits_of_parts (by simpa using all),
      takes_wrap rfl (.inr rfl) before closes (.inr rfl)⟩
  · cases whole
  · cases whole

omit bounded in
theorem takes_propertyName {list rest : List Token} {name : Text}
    (whole : propertyName list = .ok (name, rest)) (height : Nat) : Takes height list rest := by
  unfold propertyName at whole
  split at whole
  · cases whole
  · cases whole
    exact takes_token (fun _ => rfl) _ _
  · cases whole

theorem reads_postfixFrom (fuel : Nat) {tree : Tree} (begun : tree.Fits (room + 1)) :
    Reads (room + 1) (postfixFrom inner fuel tree) (Tree.Fits (room + 1)) := by
  induction fuel generalizing tree with
  | zero =>
    intro list result rest whole
    cases whole
    exact ⟨begun, .refl _ list⟩
  | succ fuel ih =>
    intro list result rest whole
    rw [postfixFrom] at whole
    split at whole
    · rename_i taken
      obtain ⟨⟨name, more⟩, read, whole⟩ := bind_ok whole
      have dot := takes_skip taken (by decide) (room + 1)
      have fits : (Tree.member tree name).Fits (room + 1) :=
        Tree.fits_of_parts (by simpa using begun)
      obtain ⟨all, behind⟩ := ih fits _ _ _ whole
      exact ⟨all, dot.trans ((takes_propertyName read _).trans behind)⟩
    · rename_i taken
      obtain ⟨⟨place, more⟩, read, whole⟩ := bind_ok whole
      obtain ⟨inside, before⟩ := bounded.expression _ _ _ read
      obtain ⟨left, close, next⟩ := bind_ok whole
      obtain ⟨first, opens, rfl⟩ := skip?_some taken
      obtain ⟨last, closes, rfl⟩ := expect_ok close
      have fits : (Tree.index tree place).Fits (room + 1) :=
        Tree.fits_of_parts (by simpa using ⟨begun, inside⟩)
      obtain ⟨all, behind⟩ := ih fits _ _ _ next
      exact ⟨all, (takes_wrap opens (.inr rfl) before closes (.inr rfl)).trans behind⟩
    · rename_i taken
      obtain ⟨⟨arguments, more⟩, read, whole⟩ := bind_ok whole
      obtain ⟨each, last, closes, before⟩ := readsUpTo_items bounded.expression _ _ _ _ read
      obtain ⟨first, opens, rfl⟩ := skip?_some taken
      have fits : (Tree.call tree arguments).Fits (room + 1) :=
        Tree.fits_of_parts (by simpa using ⟨begun, each⟩)
      obtain ⟨all, behind⟩ := ih fits _ _ _ whole
      exact ⟨all, (takes_wrap opens (.inl rfl) before closes (.inl rfl)).trans behind⟩
    · cases whole
      exact ⟨begun, .refl _ list⟩

theorem reads_postfixed : Reads (room + 1) (postfixed inner) (Tree.Fits (room + 1)) := by
  intro list tree rest whole
  obtain ⟨⟨first, more⟩, read, whole⟩ := bind_ok whole
  obtain ⟨fits, before⟩ := reads_primary bounded _ _ _ read
  obtain ⟨all, behind⟩ := reads_postfixFrom bounded _ fits _ _ _ whole
  exact ⟨all, before.trans behind⟩

omit bounded in
theorem fits_arithmetic {left right : Tree} (operator : Arithmetic)
    (first : left.Fits (room + 1)) (last : right.Fits (room + 1)) :
    (Tree.arithmetic operator left right).Fits (room + 1) :=
  Tree.fits_of_parts (by simpa using ⟨first, last⟩)

theorem reads_signedFrom (fuel : Nat) :
    Reads (room + 1) (signedFrom inner fuel) (Tree.Fits (room + 1)) := by
  induction fuel with
  | zero =>
    intro list tree rest whole
    cases whole
  | succ fuel ih =>
    intro list tree rest whole
    rw [signedFrom] at whole
    split at whole
    · rename_i sign _ taken
      obtain ⟨⟨operand, more⟩, read, whole⟩ := bind_ok whole
      obtain ⟨inside, behind⟩ := bounded.signed _ _ _ read
      cases whole
      have front := takes_operator taken bracketless_sign (room + 1)
      have fits : (Tree.signed sign operand).Fits (room + 1) :=
        Tree.fits_of_parts (by simpa using inside)
      exact ⟨fits, front.trans (behind.mono (Nat.le_succ room))⟩
    · obtain ⟨⟨base, more⟩, read, whole⟩ := bind_ok whole
      obtain ⟨fits, before⟩ := reads_postfixed bounded _ _ _ read
      dsimp only at whole
      split at whole
      · rename_i taken
        obtain ⟨⟨exponent, last⟩, further, whole⟩ := bind_ok whole
        obtain ⟨second, behind⟩ := ih _ _ _ further
        cases whole
        have power := takes_skip taken (by decide) (room + 1)
        exact ⟨fits_arithmetic .power fits second, before.trans (power.trans behind)⟩
      · cases whole
        exact ⟨fits, before⟩

theorem reads_signed : Reads (room + 1) (signed inner) (Tree.Fits (room + 1)) := by
  intro list tree rest whole
  exact reads_signedFrom bounded _ _ _ _ whole

theorem reads_sum : Reads (room + 1) (sum inner) (Tree.Fits (room + 1)) := by
  have products : Reads (room + 1) (chain product? .arithmetic (signed inner))
      (Tree.Fits (room + 1)) :=
    reads_chain (reads_signed bounded) bracketless_product fun operator _ _ => fits_arithmetic operator
  exact reads_chain products bracketless_sum fun operator _ _ => fits_arithmetic operator

omit bounded in
theorem reads_comparisonsFrom {operand : Parser Tree} {height : Nat} {property : Tree → Prop}
    (reads : Reads height operand property) (fuel : Nat) :
    Reads height (comparisonsFrom operand fuel) fun parts => ∀ part ∈ parts, property part.2 := by
  induction fuel with
  | zero =>
    intro list parts rest whole
    cases whole
    exact ⟨by simp, .refl height list⟩
  | succ fuel ih =>
    intro list parts rest whole
    rw [comparisonsFrom] at whole
    split at whole
    · cases whole
      exact ⟨by simp, .refl height list⟩
    · rename_i taken
      obtain ⟨⟨tree, more⟩, read, whole⟩ := bind_ok whole
      obtain ⟨good, before⟩ := reads _ _ _ read
      obtain ⟨⟨later, last⟩, further, whole⟩ := bind_ok whole
      obtain ⟨all, behind⟩ := ih _ _ _ further
      cases whole
      have front := takes_operator taken bracketless_comparison height
      exact ⟨List.forall_mem_cons.mpr ⟨good, all⟩, front.trans (before.trans behind)⟩

theorem reads_comparison : Reads (room + 1) (comparison inner) (Tree.Fits (room + 1)) := by
  intro list tree rest whole
  obtain ⟨⟨first, more⟩, read, whole⟩ := bind_ok whole
  obtain ⟨fits, before⟩ := reads_sum bounded _ _ _ read
  obtain ⟨⟨parts, last⟩, further, whole⟩ := bind_ok whole
  obtain ⟨all, behind⟩ := reads_comparisonsFrom (reads_sum bounded) _ _ _ _ further
  cases parts with
  | nil =>
    cases whole
    exact ⟨fits, before.trans behind⟩
  | cons part parts =>
    cases whole
    have fitting : (Tree.comparison first (part :: parts)).Fits (room + 1) :=
      Tree.fits_of_parts (List.forall_mem_cons.mpr ⟨fits, List.forall_mem_map.mpr all⟩)
    exact ⟨fitting, before.trans behind⟩

theorem reads_negation : Reads (room + 1) (negation inner) (Tree.Fits (room + 1)) := by
  intro list tree rest whole
  rw [negation] at whole
  split at whole
  · rename_i taken
    obtain ⟨⟨operand, more⟩, read, whole⟩ := bind_ok whole
    obtain ⟨inside, behind⟩ := bounded.negation _ _ _ read
    cases whole
    have front := takes_skip taken (by decide) (room + 1)
    exact ⟨Tree.fits_of_parts (by simpa using inside),
      front.trans (behind.mono (Nat.le_succ room))⟩
  · exact reads_comparison bounded _ _ _ whole

theorem reads_alternatives : Reads (room + 1) (alternatives inner) (Tree.Fits (room + 1)) := by
  have conjunctions : Reads (room + 1)
      (chain conjunction? (fun _ => .conjunction) (negation inner)) (Tree.Fits (room + 1)) :=
    reads_chain (reads_negation bounded) bracketless_conjunction fun _ _ _ left right =>
      Tree.fits_of_parts (by simpa using ⟨left, right⟩)
  exact reads_chain conjunctions bracketless_disjunction fun _ _ _ left right =>
    Tree.fits_of_parts (by simpa using ⟨left, right⟩)

theorem reads_expression : Reads (room + 1) (expression inner) (Tree.Fits (room + 1)) := by
  intro list tree rest whole
  obtain ⟨⟨test, more⟩, read, whole⟩ := bind_ok whole
  obtain ⟨fits, before⟩ := reads_alternatives bounded _ _ _ read
  dsimp only at whole
  split at whole
  · cases whole
    exact ⟨fits, before⟩
  · rename_i taken
    obtain ⟨⟨consequent, last⟩, first, whole⟩ := bind_ok whole
    obtain ⟨second, between⟩ := bounded.expression _ _ _ first
    obtain ⟨behind, colon, whole⟩ := bind_ok whole
    obtain ⟨⟨alternate, final⟩, next, whole⟩ := bind_ok whole
    obtain ⟨third, leftover⟩ := bounded.expression _ _ _ next
    cases whole
    have branches := between.trans ((takes_expect colon (by decide) room).trans leftover)
    have question := takes_skip taken (by decide) (room + 1)
    exact ⟨Tree.fits_of_parts (by simpa using ⟨fits, second, third⟩),
      before.trans (question.trans (branches.mono (Nat.le_succ room)))⟩

end Places

theorem bounded_level (room : Nat) : Bounded room (level room) := by
  induction room with
  | zero =>
    refine ⟨?_, ?_, ?_, ?_⟩
    · intro list tree rest whole
      cases whole
    · intro list tree rest whole
      cases whole
    · intro list tree rest whole
      cases whole
    · intro list trees rest whole
      cases whole
  | succ room ih =>
    refine ⟨reads_expression ih, reads_negation ih, reads_signed ih, ?_⟩
    intro list trees rest whole
    obtain ⟨all, last, closes, taken⟩ := readsUpTo_items ih.expression _ _ _ _ whole
    exact ⟨fun tree listed => (all tree listed).mono (Nat.le_succ room), last, closes,
      taken.mono (Nat.le_succ room)⟩

end VirtualInstrument.Expression
