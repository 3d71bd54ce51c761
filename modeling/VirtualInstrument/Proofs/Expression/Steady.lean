import VirtualInstrument.Expression.Evaluation
import VirtualInstrument.Proofs.Outcomes
/- Computations on sources that never change. While chance and the clock read the same each time,
   what a computation yields does not depend on what has been drawn before, and it leaves the
   sources as steady as they were. -/
namespace VirtualInstrument

/-- Sources that yield the same chance and the same time at every reading. -/
structure Sources.Constant (chance clock : Float) (sources : Sources) : Prop where
  chance : ∀ n, sources.chance.nth n = chance
  clock : ∀ n, sources.clock.nth n = clock

section Calculus
variable {chance clock : Float} {ε α β : Type}

/-- What a computation yields on all constant sources, which it leaves constant. -/
def Settles (chance clock : Float) (computation : ExceptT ε (StateM Sources) α)
    (outcome : Except ε α) : Prop :=
  ∀ sources : Sources, sources.Constant chance clock →
    (computation sources).1 = outcome ∧ (computation sources).2.Constant chance clock

def Steady (chance clock : Float) (computation : ExceptT ε (StateM Sources) α) : Prop :=
  ∃ outcome, ∀ sources : Sources, sources.Constant chance clock →
    (computation sources).1 = outcome ∧ (computation sources).2.Constant chance clock

theorem settles_lift (outcome : Except ε α) :
    Settles chance clock (liftM outcome : ExceptT ε (StateM Sources) α) outcome :=
  fun _ constant => ⟨rfl, constant⟩

theorem settles_pure (a : α) :
    Settles chance clock (pure a : ExceptT ε (StateM Sources) α) (.ok a) :=
  fun _ constant => ⟨rfl, constant⟩

theorem settles_bind {computation : ExceptT ε (StateM Sources) α}
    {next : α → ExceptT ε (StateM Sources) β} {a : α} {last : Except ε β}
    (first : Settles chance clock computation (.ok a)) (later : Settles chance clock (next a) last) :
    Settles chance clock (computation >>= next) last := by
  intro sources constant
  obtain ⟨found, kept⟩ := first sources constant
  rw [bind_run]
  cases run : computation sources with
  | mk result rest =>
    rw [run] at found kept
    cases found
    exact later rest kept

theorem settles_bind_error {computation : ExceptT ε (StateM Sources) α} {fault : ε}
    (first : Settles chance clock computation (.error fault))
    (next : α → ExceptT ε (StateM Sources) β) :
    Settles chance clock (computation >>= next) (.error fault) := by
  intro sources constant
  obtain ⟨failed, kept⟩ := first sources constant
  rw [bind_run]
  cases run : computation sources with
  | mk result rest =>
    rw [run] at failed kept
    cases failed
    exact ⟨rfl, kept⟩

theorem settles_unique {computation : ExceptT ε (StateM Sources) α} {one other : Except ε α}
    (first : Settles chance clock computation one) (second : Settles chance clock computation other) :
    one = other := by
  have constant : Sources.Constant chance clock ⟨.constant chance, .constant clock⟩ :=
    ⟨fun _ => rfl, fun _ => rfl⟩
  exact (first _ constant).1.symm.trans (second _ constant).1

theorem steady_lift (outcome : Except ε α) :
    Steady chance clock (liftM outcome : ExceptT ε (StateM Sources) α) :=
  ⟨outcome, settles_lift outcome⟩

theorem steady_pure (a : α) : Steady chance clock (pure a : ExceptT ε (StateM Sources) α) :=
  ⟨.ok a, settles_pure a⟩

theorem steady_throw (fault : ε) :
    Steady chance clock (throw fault : ExceptT ε (StateM Sources) α) :=
  ⟨.error fault, fun _ constant => ⟨rfl, constant⟩⟩

theorem steady_bind {computation : ExceptT ε (StateM Sources) α}
    {next : α → ExceptT ε (StateM Sources) β} (first : Steady chance clock computation)
    (later : ∀ a, Steady chance clock (next a)) : Steady chance clock (computation >>= next) := by
  obtain ⟨outcome, same⟩ := first
  cases outcome with
  | error fault => exact ⟨.error fault, settles_bind_error same next⟩
  | ok a =>
    obtain ⟨last, whole⟩ := later a
    exact ⟨last, settles_bind same whole⟩

end Calculus

namespace Expression
variable {chance clock : Float}

theorem draw_steady : Steady chance clock draw :=
  ⟨.ok chance, fun _ constant =>
    ⟨congrArg Except.ok (constant.chance _), ⟨constant.chance, constant.clock⟩⟩⟩

theorem readClock_steady : Steady chance clock readClock :=
  ⟨.ok clock, fun _ constant =>
    ⟨congrArg Except.ok (constant.clock _), ⟨constant.chance, constant.clock⟩⟩⟩

theorem drawWhole_steady (low high : Float) : Steady chance clock (drawWhole low high) := by
  unfold drawWhole
  split
  · exact steady_throw _
  · exact steady_bind draw_steady fun _ => steady_lift _

theorem drawItem_steady (value : Value) : Steady chance clock (drawItem value) := by
  unfold drawItem
  refine steady_bind (steady_lift _) fun items => ?_
  split
  · exact steady_throw _
  · exact steady_bind draw_steady fun _ => steady_pure _

theorem apply_steady (heap : Heap) (f : Function) (arguments : List Value) :
    Steady chance clock (apply heap f arguments) := by
  unfold apply
  split
  · exact steady_throw _
  · split
    · exact steady_bind draw_steady fun _ => steady_pure _
    · exact steady_bind (steady_lift _) fun _ => steady_bind (steady_lift _) fun _ =>
        steady_bind draw_steady fun _ => steady_lift _
    · exact steady_bind (steady_lift _) fun _ => steady_bind (steady_lift _) fun _ =>
        drawWhole_steady _ _
    · exact drawItem_steady _
    · refine steady_bind readClock_steady fun now => ?_
      split
      · exact steady_pure _
      · exact steady_throw _
    · refine steady_bind readClock_steady fun now => ?_
      split
      · exact steady_pure _
      · exact steady_pure _
    · exact steady_lift _

mutual

theorem evaluate_steady (scope : Scope) (tree : Tree) :
    Steady chance clock (evaluate scope tree) := by
  cases tree with
  | literal l =>
    rw [evaluate]
    exact steady_pure _
  | list items =>
    rw [evaluate]
    exact steady_bind (evaluateAll_steady scope items) fun _ => steady_pure _
  | name name =>
    rw [evaluate]
    exact steady_lift _
  | member object property =>
    rw [evaluate]
    exact steady_bind (evaluate_steady scope object) fun _ => steady_lift _
  | index object place =>
    rw [evaluate]
    exact steady_bind (evaluate_steady scope object) fun _ =>
      steady_bind (evaluate_steady scope place) fun _ => steady_lift _
  | call callee arguments =>
    rw [evaluate]
    refine steady_bind (evaluate_steady scope callee) fun value => ?_
    split
    · exact steady_bind (evaluateAll_steady scope arguments) fun _ => apply_steady _ _ _
    · exact steady_throw _
  | signed sign operand =>
    rw [evaluate]
    exact steady_bind (evaluate_steady scope operand) fun _ => steady_lift _
  | negation operand =>
    rw [evaluate]
    exact steady_bind (evaluate_steady scope operand) fun _ => steady_pure _
  | arithmetic op left right =>
    rw [evaluate]
    exact steady_bind (evaluate_steady scope left) fun _ =>
      steady_bind (evaluate_steady scope right) fun _ => steady_lift _
  | comparison first rest =>
    rw [evaluate]
    exact steady_bind (evaluate_steady scope first) fun value =>
      evaluateChain_steady scope value rest
  | conjunction left right =>
    rw [evaluate]
    refine steady_bind (evaluate_steady scope left) fun value => ?_
    split
    · exact evaluate_steady scope right
    · exact steady_pure _
  | disjunction left right =>
    rw [evaluate]
    refine steady_bind (evaluate_steady scope left) fun value => ?_
    split
    · exact steady_pure _
    · exact evaluate_steady scope right
  | conditional test consequent alternate =>
    rw [evaluate]
    refine steady_bind (evaluate_steady scope test) fun value => ?_
    split
    · exact evaluate_steady scope consequent
    · exact evaluate_steady scope alternate

theorem evaluateAll_steady (scope : Scope) (trees : List Tree) :
    Steady chance clock (evaluateAll scope trees) := by
  cases trees with
  | nil =>
    rw [evaluateAll]
    exact steady_pure _
  | cons tree rest =>
    rw [evaluateAll]
    exact steady_bind (evaluate_steady scope tree) fun _ =>
      steady_bind (evaluateAll_steady scope rest) fun _ => steady_pure _

theorem evaluateChain_steady (scope : Scope) (left : Value) (rest : List (Comparison × Tree)) :
    Steady chance clock (evaluateChain scope left rest) := by
  cases rest with
  | nil =>
    rw [evaluateChain]
    exact steady_pure _
  | cons link rest =>
    obtain ⟨op, operand⟩ := link
    rw [evaluateChain]
    refine steady_bind (evaluate_steady scope operand) fun right =>
      steady_bind (steady_lift _) fun holds => ?_
    split
    · exact evaluateChain_steady scope right rest
    · exact steady_pure _

end

end Expression

end VirtualInstrument
