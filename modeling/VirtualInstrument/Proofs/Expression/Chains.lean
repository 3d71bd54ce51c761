import VirtualInstrument.Proofs.Expression.Steady
/- Chains of comparisons. A chain asks what the comparisons of its neighbours ask when they are
   joined by `and`. The joined comparisons evaluate each inner operand twice, so both ask the same
   where the sources never change; the induction goes along the chain, from one neighbour to the
   next. -/
namespace VirtualInstrument.Expression

def neighbours (first : Tree) : List (Comparison × Tree) → List Tree
  | [] => []
  | (op, operand) :: rest => .comparison first [(op, operand)] :: neighbours operand rest

/-- The comparisons of the neighbours in a chain, joined by `and` from left to right. -/
def spelledOut (first : Tree) (op : Comparison) (operand : Tree)
    (rest : List (Comparison × Tree)) : Tree :=
  (neighbours operand rest).foldl .conjunction (.comparison first [(op, operand)])

inductive Stops : Except Failure Value → Prop
  | failed (failure : Failure) : Stops (.error failure)
  | denied : Stops (.ok (.boolean false))

variable {chance clock : Float} {scope : Scope}

section Conjunction
variable {left right : Tree} {outcome : Except Failure Value}

theorem conjunction_stops (stops : Stops outcome)
    (settles : Settles chance clock (evaluate scope left) outcome) (right : Tree) :
    Settles chance clock (evaluate scope (.conjunction left right)) outcome := by
  rw [evaluate]
  cases stops with
  | failed failure => exact settles_bind_error settles _
  | denied => exact settles_bind settles (settles_pure _)

theorem conjunction_goes_on (settles : Settles chance clock (evaluate scope left) (.ok (.boolean true)))
    (next : Settles chance clock (evaluate scope right) outcome) :
    Settles chance clock (evaluate scope (.conjunction left right)) outcome := by
  rw [evaluate]
  exact settles_bind settles next

theorem conjunctions_stop (stops : Stops outcome)
    (settles : Settles chance clock (evaluate scope left) outcome) (others : List Tree) :
    Settles chance clock (evaluate scope (others.foldl .conjunction left)) outcome := by
  induction others generalizing left with
  | nil => exact settles
  | cons other others ih => exact ih (conjunction_stops stops settles other)

end Conjunction

section Chain
variable {first operand : Tree} {op : Comparison}

/-- How a chain begins: its first comparison stops it, or leads on to the chain from the second
    operand. -/
inductive Opening (chance clock : Float) (scope : Scope) (first : Tree) (op : Comparison)
    (operand : Tree) : Prop
  | stops {outcome : Except Failure Value} (stops : Stops outcome)
      (whole : ∀ rest, Settles chance clock
        (evaluate scope (.comparison first ((op, operand) :: rest))) outcome)
  | goesOn (holds : Settles chance clock (evaluate scope (.comparison first [(op, operand)]))
        (.ok (.boolean true)))
      (whole : ∀ rest outcome,
        Settles chance clock (evaluate scope (.comparison operand rest)) outcome →
          Settles chance clock (evaluate scope (.comparison first ((op, operand) :: rest))) outcome)

theorem chain_settles {a b : Value} (one : Settles chance clock (evaluate scope first) (.ok a))
    (two : Settles chance clock (evaluate scope operand) (.ok b)) (rest : List (Comparison × Tree))
    {outcome : Except Failure Value}
    (later : Settles chance clock (do
      if ← liftM (compare scope.heap op a b) then evaluateChain scope b rest
      else return .boolean false) outcome) :
    Settles chance clock (evaluate scope (.comparison first ((op, operand) :: rest))) outcome := by
  rw [evaluate]
  refine settles_bind one ?_
  rw [evaluateChain]
  exact settles_bind two later

theorem opening_of_comparison (chance clock : Float) (scope : Scope) (first : Tree) (op : Comparison)
    (operand : Tree) : Opening chance clock scope first op operand := by
  obtain ⟨outcome, one⟩ : Steady chance clock (evaluate scope first) := evaluate_steady scope first
  cases outcome with
  | error failure =>
    refine .stops (.failed failure) fun rest => ?_
    rw [evaluate]
    exact settles_bind_error one _
  | ok a =>
  obtain ⟨outcome, two⟩ : Steady chance clock (evaluate scope operand) :=
    evaluate_steady scope operand
  cases outcome with
  | error failure =>
    refine .stops (.failed failure) fun rest => ?_
    rw [evaluate]
    refine settles_bind one ?_
    rw [evaluateChain]
    exact settles_bind_error two _
  | ok b =>
  have compared : Settles chance clock
      (liftM (compare scope.heap op a b) : ExceptT Failure (StateM Sources) Bool) _ := settles_lift _
  cases verdict : compare scope.heap op a b with
  | error failure =>
    rw [verdict] at compared
    refine .stops (.failed failure) fun rest => chain_settles one two rest ?_
    rw [verdict]
    exact settles_bind_error compared _
  | ok holds =>
  rw [verdict] at compared
  cases holds with
  | false =>
    refine .stops .denied fun rest => chain_settles one two rest ?_
    rw [verdict]
    exact settles_bind compared (settles_pure _)
  | true =>
    refine .goesOn (chain_settles one two [] ?_) fun rest outcome settled =>
      chain_settles one two rest ?_
    · rw [verdict]
      refine settles_bind compared ?_
      rw [if_pos rfl, evaluateChain]
      exact settles_pure _
    · rw [verdict]
      refine settles_bind compared ?_
      obtain ⟨other, behind⟩ : Steady chance clock (evaluateChain scope b rest) :=
        evaluateChain_steady scope b rest
      have again : Settles chance clock (evaluate scope (.comparison operand rest)) other := by
        rw [evaluate]
        exact settles_bind two behind
      rw [if_pos rfl, settles_unique settled again]
      exact behind

/-- The comparisons behind one that yields what the chain begins with go along with the chain. -/
theorem conjunctions_follow (rest : List (Comparison × Tree)) {first operand joined : Tree}
    {op : Comparison}
    (begun : ∀ outcome,
      Settles chance clock (evaluate scope (.comparison first [(op, operand)])) outcome →
        Settles chance clock (evaluate scope joined) outcome) :
    ∃ outcome,
      Settles chance clock (evaluate scope (.comparison first ((op, operand) :: rest))) outcome ∧
        Settles chance clock
          (evaluate scope ((neighbours operand rest).foldl .conjunction joined)) outcome := by
  induction rest generalizing first operand joined op with
  | nil =>
    obtain ⟨outcome, settled⟩ : Steady chance clock
        (evaluate scope (.comparison first [(op, operand)])) := evaluate_steady scope _
    exact ⟨outcome, settled, begun outcome settled⟩
  | cons link rest ih =>
    obtain ⟨next, further⟩ := link
    cases opening_of_comparison chance clock scope first op operand with
    | stops stops whole =>
      exact ⟨_, whole _, conjunctions_stop stops (begun _ (whole [])) _⟩
    | goesOn holds whole =>
      have joins (outcome : Except Failure Value) : Settles chance clock
          (evaluate scope (.comparison operand [(next, further)])) outcome →
            Settles chance clock
              (evaluate scope (.conjunction joined (.comparison operand [(next, further)]))) outcome :=
        conjunction_goes_on (begun _ holds)
      obtain ⟨outcome, chained, spelled⟩ := ih joins
      exact ⟨outcome, whole _ outcome chained, spelled⟩

end Chain

theorem evaluateChain_false {left : Value} {sources last : Sources}
    {before : List (Comparison × Tree)} (after : List (Comparison × Tree))
    (denied : evaluateChain scope left before sources = (.ok (.boolean false), last)) :
    evaluateChain scope left (before ++ after) sources = (.ok (.boolean false), last) := by
  induction before generalizing left sources with
  | nil =>
    rw [evaluateChain] at denied
    cases denied
  | cons link before ih =>
    obtain ⟨op, operand⟩ := link
    rw [evaluateChain] at denied
    rw [List.cons_append, evaluateChain]
    obtain ⟨right, between, evaluated, denied⟩ := bind_yields_iff.mp denied
    obtain ⟨holds, compared, denied⟩ := lift_bind_yields_iff.mp denied
    refine bind_yields_iff.mpr ⟨right, between, evaluated, ?_⟩
    refine lift_bind_yields_iff.mpr ⟨holds, compared, ?_⟩
    cases holds with
    | true => exact ih denied
    | false => exact denied

/-- A chain is the conjunction of its neighbours' comparisons, and the first of them that is false
    ends it. -/
theorem chain_is_conjunction {chance clock : Float} (scope : Scope) {sources : Sources}
    (constant : sources.Constant chance clock) (first : Tree) (op : Comparison) (operand : Tree)
    (rest : List (Comparison × Tree)) :
    (evaluate scope (.comparison first ((op, operand) :: rest)) sources).1 =
        (evaluate scope (spelledOut first op operand rest) sources).1 ∧
      ∀ before after last,
        evaluate scope (.comparison first before) sources = (.ok (.boolean false), last) →
          evaluate scope (.comparison first (before ++ after)) sources =
            (.ok (.boolean false), last) := by
  constructor
  · have same (outcome : Except Failure Value) (settled : Settles chance clock
        (evaluate scope (.comparison first [(op, operand)])) outcome) := settled
    obtain ⟨outcome, chained, spelled⟩ := conjunctions_follow rest same
    exact (chained sources constant).1.trans (spelled sources constant).1.symm
  · intro before after last denied
    rw [evaluate] at denied ⊢
    obtain ⟨value, between, evaluated, denied⟩ := bind_yields_iff.mp denied
    exact bind_yields_iff.mpr ⟨value, between, evaluated, evaluateChain_false after denied⟩

/-- In `b < a < x`, whose last operand is unknown, the first comparison is false. -/
theorem false_comparison_hides_unknown_name :
    let scope : Scope := ⟨.empty, 0, []⟩
    let sources : Sources := ⟨.constant 0.5, .constant 0⟩
    let b : Tree := .literal (.string (text "b"))
    let a : Tree := .literal (.string (text "a"))
    let x : Tree := .name (text "x")
    sources.Constant 0.5 0 ∧
      (evaluate scope (.comparison b [(.less, a), (.less, x)]) sources).1 =
        .ok (.boolean false) ∧
      (evaluate scope (.conjunction (.comparison b [(.less, a)]) (.comparison a [(.less, x)]))
        sources).1 = .ok (.boolean false) := by
  have constant : Sources.Constant 0.5 0 ⟨.constant 0.5, .constant 0⟩ :=
    ⟨fun _ => rfl, fun _ => rfl⟩
  have whole := (chain_is_conjunction ⟨.empty, 0, []⟩ constant (.literal (.string (text "b"))) .less
    (.literal (.string (text "a"))) [(.less, .name (text "x"))]).1
  have denied : (evaluate ⟨.empty, 0, []⟩ (.comparison (.literal (.string (text "b")))
      [(.less, .literal (.string (text "a"))), (.less, .name (text "x"))])
        ⟨.constant 0.5, .constant 0⟩).1 = .ok (.boolean false) := by
    rfl
  exact ⟨constant, denied, whole.symm.trans denied⟩

end VirtualInstrument.Expression
