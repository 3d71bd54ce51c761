import VirtualInstrument.Instrument
/- Conversations: what a script sends to an instrument one after the other, and what it hears.
   Between two calls the world around may change the instrument. -/
namespace VirtualInstrument

structure Sending where
  kind : Kind
  command : Text
  delay : Option Float
deriving DecidableEq, Repr

inductive Turn (σ : Type)
  | send (call : Sending)
  | outside (change : σ → σ)

def Turn.Keeps {σ : Type} (property : σ → Prop) : Turn σ → Prop
  | .send _ => True
  | .outside change => ∀ s, property s → property (change s)

/-- A response that an instrument may give to a call of some kind: nothing, a text, or the bytes of
    a text. -/
def Response.Fits (kind : Kind) (response : Response) : Prop := ∃ t, response = .ofText t kind

def answered {ε : Type} (heard : List (Sending × Except ε Response)) :
    List (Sending × Response) :=
  heard.filterMap fun (call, result) => result.toOption.map fun response => (call, response)

namespace Instrument
variable {σ ε : Type} [Instrument σ ε]

def send (s : σ) (call : Sending) : Outcome σ ε Response :=
  exchange s call.kind call.command call.delay

def converse (s : σ) : List (Turn σ) → List (Sending × Except ε Response) × σ
  | [] => ([], s)
  | .send call :: rest =>
    let outcome := send s call
    let (later, last) := converse outcome.next rest
    ((call, outcome.result) :: later, last)
  | .outside change :: rest => converse (change s) rest

/-- A property of instruments that calls keep, and under which a response is of its kind. -/
structure AnswersInKind (property : σ → Prop) : Prop where
  next : ∀ s call, property s → property (send s call).next
  fits : ∀ s call response, property s → (send s call).result = .ok response →
    response.Fits call.kind

end Instrument

open Instrument

theorem answered_nil {ε : Type} : answered ([] : List (Sending × Except ε Response)) = [] := rfl

theorem answered_cons_ok {ε : Type} (call : Sending) (response : Response)
    (rest : List (Sending × Except ε Response)) :
    answered ((call, .ok response) :: rest) = (call, response) :: answered rest := rfl

theorem answered_cons_error {ε : Type} (call : Sending) (fault : ε)
    (rest : List (Sending × Except ε Response)) :
    answered ((call, .error fault) :: rest) = answered rest := rfl

theorem answered_append {ε : Type} (first second : List (Sending × Except ε Response)) :
    answered (first ++ second) = answered first ++ answered second :=
  List.filterMap_append

theorem answered_fits {σ ε : Type} [Instrument σ ε] {property : σ → Prop}
    (answers : AnswersInKind property) (turns : List (Turn σ)) {s : σ} (start : property s)
    (kept : ∀ turn ∈ turns, turn.Keeps property) :
    ∀ served ∈ answered (converse s turns).1, served.2.Fits served.1.kind := by
  induction turns generalizing s with
  | nil => simp [converse, answered_nil]
  | cons turn rest ih =>
    obtain ⟨here, later⟩ := List.forall_mem_cons.mp kept
    cases turn with
    | outside change => exact ih (here s start) later
    | send call =>
      have others := ih (answers.next s call start) later
      cases result : (send s call).result with
      | error fault =>
        rw [converse, result, answered_cons_error]
        exact others
      | ok response =>
        rw [converse, result, answered_cons_ok]
        exact List.forall_mem_cons.mpr ⟨answers.fits s call response start result, others⟩

end VirtualInstrument
