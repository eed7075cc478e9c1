import Mathlib.Data.List.Chain
import ApiHandbook.Source.Reading.Basic

/-!
# Loops

A turn of a loop goes round again, ends the loop or fails. If every turn that goes round again
leaves less ahead than it found, the loop comes to an end from every state, and what it comes to
is what the reader gives whose turns it takes.
-/
namespace ApiHandbook.Source

/-! ## Turns and runs -/

/-- Something is taken from the front. -/
def Forward {α : Type} (items rest : List α) : Prop := ∃ taken, taken ≠ [] ∧ items = taken ++ rest

inductive Turn (σ ρ : Type) where
  | again (state : σ)
  | ends (result : ρ)

/-- A loop, what is ahead of its states and left by its results, and the reader it belongs to. -/
structure Loop (α : Type) where
  State : Type
  Result : Type
  ahead : State → List α
  left : Result → List α
  turn : State → Except SyntaxError (Turn State Result)
  reader : State → Except SyntaxError Result

namespace Loop

variable {α : Type} (loop : Loop α)

/-- The turns from a state on, with the states in which they begin and the outcome of the last. -/
inductive Runs : loop.State → List loop.State → Except SyntaxError loop.Result → Prop
  | ends {state : loop.State} {result : loop.Result} (turn : loop.turn state = .ok (.ends result)) :
      Runs state [state] (.ok result)
  | fails {state : loop.State} {fault : SyntaxError} (turn : loop.turn state = .error fault) :
      Runs state [state] (.error fault)
  | again {state next : loop.State} {states : List loop.State}
      {outcome : Except SyntaxError loop.Result} (turn : loop.turn state = .ok (.again next))
      (further : Runs next states outcome) : Runs state (state :: states) outcome

/-- Every turn that goes round again moves forward, and none moves past the end. -/
structure Advances : Prop where
  again : ∀ state next, loop.turn state = .ok (.again next) →
    Forward (loop.ahead state) (loop.ahead next)
  ends : ∀ state result, loop.turn state = .ok (.ends result) →
    loop.left result <:+ loop.ahead state

/-- What is still there when a turn is over. -/
def behind : Turn loop.State loop.Result → List α
  | .again state => loop.ahead state
  | .ends result => loop.left result

/-- The turn that ends the loop moves forward as well. -/
def AlwaysAdvances : Prop :=
  ∀ state turn, loop.turn state = .ok turn → Forward (loop.ahead state) (loop.behind turn)

/-- The turn ends the loop and leaves all that was ahead of it. -/
def Stays (state : loop.State) : Prop :=
  ∃ result, loop.turn state = .ok (.ends result) ∧ loop.left result = loop.ahead state

/-- The reader takes the turns of the loop. -/
def Unrolls : Prop :=
  ∀ state, loop.reader state = loop.turn state >>= fun
    | .again next => loop.reader next
    | .ends result => .ok result

/-- From every state the loop runs, always forward, to what the reader gives. -/
def Terminates : Prop :=
  loop.Advances ∧ ∀ state, ∃ states, loop.Runs state states (loop.reader state) ∧
    states.IsChain (fun earlier later => Forward (loop.ahead earlier) (loop.ahead later)) ∧
    states.length ≤ (loop.ahead state).length + 1

end Loop

section
variable {α : Type} {items middle rest : List α}

theorem Forward.length_lt (forward : Forward items rest) : rest.length < items.length := by
  obtain ⟨taken, nonempty, rfl⟩ := forward
  have := List.length_pos_iff.mpr nonempty
  rw [List.length_append]
  omega

theorem Forward.behind (tail : middle <:+ items) (forward : Forward middle rest) :
    Forward items rest := by
  obtain ⟨front, rfl⟩ := tail
  obtain ⟨taken, nonempty, rfl⟩ := forward
  exact ⟨front ++ taken, by simp [nonempty], (List.append_assoc _ _ _).symm⟩

theorem Forward.suffix (forward : Forward items rest) : rest <:+ items := by
  obtain ⟨taken, -, rfl⟩ := forward
  exact List.suffix_append taken rest

theorem forward_cons (item : α) (rest : List α) : Forward (item :: rest) rest :=
  ⟨[item], List.cons_ne_nil _ _, rfl⟩

theorem Forward.further (forward : Forward items middle) (tail : rest <:+ middle) :
    Forward items rest := by
  obtain ⟨taken, nonempty, rfl⟩ := forward
  obtain ⟨front, rfl⟩ := tail
  exact ⟨taken ++ front, by simp [nonempty], (List.append_assoc _ _ _).symm⟩

end

theorem Reading.forward {tokens : List Token} {α : Type} (reading : Reading tokens α) :
    Forward tokens reading.rest := by
  obtain ⟨taken, split⟩ := reading.tail
  refine ⟨taken, ?_, split.symm⟩
  rintro rfl
  have := reading.shorter
  simp_all

theorem Loop.Runs.exists_head {α : Type} {loop : Loop α} {state : loop.State}
    {states : List loop.State} {outcome : Except SyntaxError loop.Result}
    (runs : loop.Runs state states outcome) : ∃ others, states = state :: others := by
  cases runs with
  | ends | fails => exact ⟨[], rfl⟩
  | again _ _ => exact ⟨_, rfl⟩

theorem Loop.AlwaysAdvances.advances {α : Type} {loop : Loop α} (always : loop.AlwaysAdvances) :
    loop.Advances where
  again state next := always state (.again next)
  ends state result turn := (always state (.ends result) turn).suffix

theorem Loop.Stays.not_alwaysAdvances {α : Type} {loop : Loop α} {state : loop.State}
    (stays : loop.Stays state) : ¬ loop.AlwaysAdvances := by
  obtain ⟨result, turn, left_all⟩ := stays
  intro always
  have shorter := (always state (.ends result) turn).length_lt
  rw [Loop.behind, left_all] at shorter
  exact Nat.lt_irrefl _ shorter

/-- The induction is on what is still ahead. -/
theorem Loop.terminates {α : Type} {loop : Loop α} (advances : loop.Advances)
    (unrolls : loop.Unrolls) : loop.Terminates := by
  refine ⟨advances, fun state => ?_⟩
  induction size : (loop.ahead state).length using Nat.strongRecOn generalizing state with
  | _ size ih =>
    rw [unrolls state]
    cases turn : loop.turn state with
    | error fault => exact ⟨[state], .fails turn, .singleton _, by simp⟩
    | ok result =>
      cases result with
      | ends result => exact ⟨[state], .ends turn, .singleton _, by simp⟩
      | again next =>
        have forward := advances.again state next turn
        have shorter := forward.length_lt
        obtain ⟨states, runs, ordered, bound⟩ := ih _ (size ▸ shorter) next rfl
        refine ⟨state :: states, .again turn runs, ?_, ?_⟩
        · obtain ⟨others, rfl⟩ := runs.exists_head
          exact .cons_cons forward ordered
        · rw [List.length_cons]
          omega

end ApiHandbook.Source
