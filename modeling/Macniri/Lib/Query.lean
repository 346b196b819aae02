import Mathlib.Logic.Basic

/-! Computations that ask questions, and the questions that decide their results. -/
namespace Macniri

/-- A computation with questions in `ι` and answers in `β`. -/
inductive Query (ι β : Type) (α : Type)
  | done (a : α)
  | ask (i : ι) (next : β → Query ι β α)

namespace Query

variable {ι β α α' : Type} {f g : ι → β}

def bind : Query ι β α → (α → Query ι β α') → Query ι β α'
  | done a, k => k a
  | ask i next, k => ask i fun b => (next b).bind k

instance : Monad (Query ι β) where
  pure := done
  bind := bind

/-- The result for the given answers. -/
def eval (f : ι → β) : Query ι β α → α
  | done a => a
  | ask i next => (next (f i)).eval f

/-- The questions that are asked for the given answers, in order. -/
def asked (f : ι → β) : Query ι β α → List ι
  | done _ => []
  | ask i next => i :: (next (f i)).asked f

@[simp] theorem eval_pure (a : α) : (pure a : Query ι β α).eval f = a := rfl

@[simp] theorem asked_pure (a : α) : (pure a : Query ι β α).asked f = [] := rfl

@[simp] theorem eval_bind (q : Query ι β α) (k : α → Query ι β α') :
    (q >>= k).eval f = (k (q.eval f)).eval f := by
  induction q with
  | done a => rfl
  | ask i next ih => exact ih (f i)

@[simp] theorem asked_bind (q : Query ι β α) (k : α → Query ι β α') :
    (q >>= k).asked f = q.asked f ++ (k (q.eval f)).asked f := by
  induction q with
  | done a => rfl
  | ask i next ih => exact congrArg (i :: ·) (ih (f i))

/-- Only the answers to the questions that are asked matter. -/
theorem eval_congr {q : Query ι β α} (h : ∀ i ∈ q.asked f, g i = f i) :
    q.eval g = q.eval f ∧ q.asked g = q.asked f := by
  induction q with
  | done a => exact ⟨rfl, rfl⟩
  | ask i next ih =>
    have hi : g i = f i := h i (List.mem_cons_self ..)
    obtain ⟨heval, hasked⟩ := ih (f i) fun j hj => h j (List.mem_cons_of_mem i hj)
    constructor
    · rw [eval, eval, hi, heval]
    · rw [asked, asked, hi, hasked]

end Query

end Macniri
