import Mathlib.Data.List.Basic

/-!
# Queries over an environment

A query asks an environment for the values of keys, and each answer chooses
what it asks next. Its result depends on the keys it asked and on no others,
which is what makes a cache of results with recorded keys sound.
-/

namespace Exosuit.Lib

universe u v w

inductive Query (κ : Type u) (ν : Type v) (α : Type w)
  | ret (a : α)
  | ask (k : κ) (next : ν → Query κ ν α)

namespace Query

variable {κ : Type u} {ν : Type v} {α β : Type w} {env env' : κ → ν}

def eval (env : κ → ν) : Query κ ν α → α
  | .ret a => a
  | .ask k next => (next (env k)).eval env

def asked (env : κ → ν) : Query κ ν α → List κ
  | .ret _ => []
  | .ask k next => k :: (next (env k)).asked env

def bind : Query κ ν α → (α → Query κ ν β) → Query κ ν β
  | .ret a, f => f a
  | .ask k next, f => .ask k fun x => (next x).bind f

@[simp] theorem eval_ret (a : α) : (ret a : Query κ ν α).eval env = a := rfl

@[simp] theorem asked_ret (a : α) : (ret a : Query κ ν α).asked env = [] := rfl

@[simp] theorem eval_ask (k : κ) (next : ν → Query κ ν α) :
    (ask k next).eval env = (next (env k)).eval env := rfl

@[simp] theorem asked_ask (k : κ) (next : ν → Query κ ν α) :
    (ask k next).asked env = k :: (next (env k)).asked env := rfl

@[simp] theorem eval_bind (q : Query κ ν α) (f : α → Query κ ν β) :
    (q.bind f).eval env = (f (q.eval env)).eval env := by
  induction q with
  | ret a => rfl
  | ask k next ih => exact ih (env k)

@[simp] theorem asked_bind (q : Query κ ν α) (f : α → Query κ ν β) :
    (q.bind f).asked env = q.asked env ++ (f (q.eval env)).asked env := by
  induction q with
  | ret a => rfl
  | ask k next ih => exact congrArg (k :: ·) (ih (env k))

theorem agree (q : Query κ ν α) (h : ∀ k ∈ q.asked env, env' k = env k) :
    q.eval env' = q.eval env ∧ q.asked env' = q.asked env := by
  induction q with
  | ret a => exact ⟨rfl, rfl⟩
  | ask k next ih =>
    have hk : env' k = env k := h k List.mem_cons_self
    obtain ⟨hEval, hAsked⟩ := ih (env k) fun k' hk' => h k' (List.mem_cons_of_mem k hk')
    rw [eval_ask, asked_ask, hk]
    exact ⟨hEval, congrArg (k :: ·) hAsked⟩

theorem eval_congr (q : Query κ ν α) (h : ∀ k ∈ q.asked env, env' k = env k) :
    q.eval env' = q.eval env := (q.agree h).1

theorem asked_congr (q : Query κ ν α) (h : ∀ k ∈ q.asked env, env' k = env k) :
    q.asked env' = q.asked env := (q.agree h).2

end Query

end Exosuit.Lib
