import Mathlib.Data.List.Basic
import Onyxup.Lib.Memory

/-!
Contract: sources that put out a text in as many symbols at a time as there is room for.

Owns: the parts in which a text goes out, what it is for a source to put out a text
whatever room its callers make, and the block in which a caller collects the parts.

Does not own: how a source makes its text.
-/

set_option autoImplicit false

namespace Onyxup.Lib.Supply

open Onyxup.Lib.Memory

variable {σ β ρ : Type}

/-- A call with room for some symbols: the next state, what was put out, and an answer. -/
def Source (σ β ρ : Type) := σ → (room : Nat) → σ × List β × ρ

/-- The parts of a text when there is room for so many symbols at a time. -/
def parts : (text : List β) → (rooms : List Nat) → List (List β)
  | _, [] => []
  | text, room :: rooms => text.take room :: parts (text.drop room) rooms

/-- What a source puts out and answers, call after call. -/
def calls (source : Source σ β ρ) : σ → List Nat → List (List β × ρ)
  | _, [] => []
  | state, room :: rooms =>
      (source state room).2 :: calls source (source state room).1 rooms

/-- The source puts out the text and gives only answers that are expected. -/
def PutsOut (source : Source σ β ρ) (expected : ρ → Prop) (state : σ) (text : List β) : Prop :=
  ∀ rooms, (calls source state rooms).map Prod.fst = parts text rooms ∧
    ∀ call ∈ calls source state rooms, expected call.2

section Laws

variable {source : Source σ β ρ} {expected : ρ → Prop} {state : σ} {text : List β}

/-- The first call gets the first part. -/
theorem PutsOut.first (puts : PutsOut source expected state text) (room : Nat) :
    (source state room).2.1 = text.take room ∧ expected (source state room).2.2 := by
  obtain ⟨whole, answers⟩ := puts [room]
  refine ⟨?_, answers _ List.mem_cons_self⟩
  simpa only [calls, parts, List.map_cons, List.map_nil, List.cons.injEq, and_true] using whole

/-- The later calls get the rest. -/
theorem PutsOut.rest (puts : PutsOut source expected state text) (room : Nat) :
    PutsOut source expected (source state room).1 (text.drop room) := by
  intro rooms
  obtain ⟨whole, answers⟩ := puts (room :: rooms)
  simp only [calls, parts, List.map_cons, List.cons.injEq] at whole
  exact ⟨whole.2, fun call member => answers call (List.mem_cons_of_mem _ member)⟩

/-- Symbols that are copied behind those that a block starts with. -/
theorem take_overwrite {block front written : List β}
    (starts : block.take front.length = front) :
    (overwrite block front.length written).take (front.length + written.length) =
      front ++ written := by
  rw [overwrite, starts, ← List.length_append, List.take_left]

end Laws

end Onyxup.Lib.Supply
