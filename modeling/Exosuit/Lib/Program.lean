import Exosuit.Lib.Run

/-!
# Programs over atomic calls

A program looks at the state and makes calls, each of which commits on its own:
a call that fails may have written, and what it wrote stays. The meaning of the
calls is a parameter of `run`, so that what every call preserves every program
preserves.
-/

namespace Exosuit.Lib

universe u v w

/-! ## Results -/

theorem bind_eq_ok {ε α β : Type u} {x : Except ε α} {f : α → Except ε β} {b : β} :
    (x >>= f) = .ok b ↔ ∃ a, x = .ok a ∧ f a = .ok b := by
  cases x with
  | ok a => exact ⟨fun h => ⟨a, rfl, h⟩, fun ⟨_, ha, h⟩ => Except.ok.inj ha ▸ h⟩
  | error e => exact ⟨nofun, fun ⟨_, ha, _⟩ => nomatch ha⟩

theorem map_eq_ok {ε : Type u} {α : Type v} {β : Type w} {x : Except ε α} {f : α → β} {b : β} :
    x.map f = .ok b ↔ ∃ a, x = .ok a ∧ f a = b := by
  cases x with
  | ok a => exact ⟨fun h => ⟨a, rfl, Except.ok.inj h⟩, fun ⟨_, ha, h⟩ => Except.ok.inj ha ▸ h ▸ rfl⟩
  | error e => exact ⟨nofun, fun ⟨_, ha, _⟩ => nomatch ha⟩

theorem pure_eq_ok {ε α : Type u} {a b : α} : (pure a : Except ε α) = .ok b ↔ a = b :=
  ⟨Except.ok.inj, congrArg Except.ok⟩

variable {σ ω ε ρ : Type u} {α β : Type u}

inductive Program (σ ω ε ρ : Type u) (α : Type u) : Type u
  | ret (a : α)
  | fail (e : ε)
  | look (k : σ → Program σ ω ε ρ α)
  | call (op : ω) (k : Except ε ρ → Program σ ω ε ρ α)

namespace Program

def bind : Program σ ω ε ρ α → (α → Program σ ω ε ρ β) → Program σ ω ε ρ β
  | ret a, f => f a
  | fail e, _ => fail e
  | look k, f => look fun s => (k s).bind f
  | call op k, f => call op fun r => (k r).bind f

instance : Monad (Program σ ω ε ρ) where
  pure := ret
  bind := bind

/-- What `f` reads from the state. -/
def reading (f : σ → α) : Program σ ω ε ρ α := look fun s => ret (f s)

def perform (op : ω) : Program σ ω ε ρ ρ :=
  call op fun
    | .ok reply => ret reply
    | .error e => fail e

def ofExcept : Except ε α → Program σ ω ε ρ α
  | .ok a => ret a
  | .error e => fail e

/-- Runs the program and goes on with its outcome, be it a failure. -/
def attempt : Program σ ω ε ρ α → Program σ ω ε ρ (Except ε α)
  | ret a => ret (.ok a)
  | fail e => ret (.error e)
  | look k => look fun s => (k s).attempt
  | call op k => call op fun r => (k r).attempt

variable (exec : ω → σ → Except ε ρ × σ)

def run : Program σ ω ε ρ α → σ → Except ε α × σ
  | ret a, s => (.ok a, s)
  | fail e, s => (.error e, s)
  | look k, s => (k s).run s
  | call op k, s => (k (exec op s).1).run (exec op s).2

@[simp] theorem run_ret (a : α) (s : σ) : (ret a : Program σ ω ε ρ α).run exec s = (.ok a, s) := rfl

@[simp] theorem run_pure (a : α) (s : σ) :
    (pure a : Program σ ω ε ρ α).run exec s = (.ok a, s) := rfl

@[simp] theorem run_fail (e : ε) (s : σ) :
    (fail e : Program σ ω ε ρ α).run exec s = (.error e, s) := rfl

@[simp] theorem run_reading (f : σ → α) (s : σ) :
    (reading f : Program σ ω ε ρ α).run exec s = (.ok (f s), s) := rfl

@[simp] theorem run_perform (op : ω) (s : σ) :
    (perform op : Program σ ω ε ρ ρ).run exec s = exec op s := by
  cases h : exec op s with
  | mk r s' =>
    cases r with
    | ok reply => simp [perform, run, h]
    | error e => simp [perform, run, h]

@[simp] theorem run_ofExcept (r : Except ε α) (s : σ) :
    (ofExcept r : Program σ ω ε ρ α).run exec s = (r, s) := by
  cases r <;> rfl

theorem run_bind (p : Program σ ω ε ρ α) (f : α → Program σ ω ε ρ β) (s : σ) :
    (p >>= f).run exec s =
      match p.run exec s with
      | (.ok a, s') => (f a).run exec s'
      | (.error e, s') => (.error e, s') := by
  induction p generalizing s with
  | ret a => rfl
  | fail e => rfl
  | look k ih => exact ih s s
  | call op k ih => exact ih _ _

theorem run_attempt (p : Program σ ω ε ρ α) (s : σ) :
    p.attempt.run exec s = (.ok (p.run exec s).1, (p.run exec s).2) := by
  induction p generalizing s with
  | ret a => rfl
  | fail e => rfl
  | look k ih => exact ih s s
  | call op k ih => exact ih _ _

variable {exec}

theorem run_bind_of_ok {p : Program σ ω ε ρ α} {f : α → Program σ ω ε ρ β} {s s' : σ} {a : α}
    (h : p.run exec s = (.ok a, s')) : (p >>= f).run exec s = (f a).run exec s' := by
  rw [run_bind, h]

theorem run_bind_of_error {p : Program σ ω ε ρ α} {f : α → Program σ ω ε ρ β} {s s' : σ} {e : ε}
    (h : p.run exec s = (.error e, s')) : (p >>= f).run exec s = (.error e, s') := by
  rw [run_bind, h]

/-- A sequence succeeds when both parts do. -/
theorem run_bind_eq_ok {p : Program σ ω ε ρ α} {f : α → Program σ ω ε ρ β} {s t : σ} {b : β} :
    (p >>= f).run exec s = (.ok b, t) ↔
      ∃ a s', p.run exec s = (.ok a, s') ∧ (f a).run exec s' = (.ok b, t) := by
  rw [run_bind]
  constructor
  · intro h
    split at h
    · next a s' hp => exact ⟨a, s', hp, h⟩
    · exact absurd (congrArg Prod.fst h) nofun
  · rintro ⟨a, s', hp, h⟩
    rw [hp]
    exact h

/-! ## Weakest preconditions -/

variable (exec) in
/-- Run from `s`, the program ends with `Q`, or fails with `E`. -/
def wp (p : Program σ ω ε ρ α) (Q : α → σ → Prop) (E : ε → σ → Prop) (s : σ) : Prop :=
  match p.run exec s with
  | (.ok a, t) => Q a t
  | (.error e, t) => E e t

variable {Q' : α → σ → Prop} {E' : ε → σ → Prop} {s t : σ}

theorem wp_of_run_ok {p : Program σ ω ε ρ α} {a : α} (h : p.run exec s = (.ok a, t)) :
    p.wp exec Q' E' s ↔ Q' a t := by
  rw [wp, h]

theorem wp_of_run_error {p : Program σ ω ε ρ α} {e : ε} (h : p.run exec s = (.error e, t)) :
    p.wp exec Q' E' s ↔ E' e t := by
  rw [wp, h]

@[simp] theorem wp_pure (a : α) : (pure a : Program σ ω ε ρ α).wp exec Q' E' s ↔ Q' a s := Iff.rfl

@[simp] theorem wp_fail (e : ε) : (fail e : Program σ ω ε ρ α).wp exec Q' E' s ↔ E' e s := Iff.rfl

@[simp] theorem wp_reading (f : σ → α) :
    (reading f : Program σ ω ε ρ α).wp exec Q' E' s ↔ Q' (f s) s := Iff.rfl

theorem wp_bind {p : Program σ ω ε ρ α} {f : α → Program σ ω ε ρ β} {Q : β → σ → Prop} :
    (p >>= f).wp exec Q E' s ↔ p.wp exec (fun a t => (f a).wp exec Q E' t) E' s := by
  rw [wp, wp, run_bind]
  rcases p.run exec s with ⟨_ | a, t⟩
  · exact Iff.rfl
  · exact Iff.rfl

theorem wp_attempt {p : Program σ ω ε ρ α} {Q : Except ε α → σ → Prop} :
    p.attempt.wp exec Q E' s ↔
      p.wp exec (fun a t => Q (.ok a) t) (fun e t => Q (.error e) t) s := by
  rw [wp, wp, run_attempt]
  rcases p.run exec s with ⟨_ | a, t⟩
  · exact Iff.rfl
  · exact Iff.rfl

theorem wp_mono {p : Program σ ω ε ρ α} {Q : α → σ → Prop} {E : ε → σ → Prop}
    (h : p.wp exec Q E s) (hQ : ∀ a t, Q a t → Q' a t) (hE : ∀ e t, E e t → E' e t) :
    p.wp exec Q' E' s := by
  rw [wp] at h ⊢
  rcases hRun : p.run exec s with ⟨_ | a, t⟩ <;> rw [hRun] at h
  · exact hE _ _ h
  · exact hQ _ _ h

/-- What every outcome meets, the state that is left meets. -/
theorem snd_of_wp {p : Program σ ω ε ρ α} {I : σ → Prop}
    (h : p.wp exec (fun _ t => I t) (fun _ t => I t) s) : I (p.run exec s).2 := by
  rw [wp] at h
  rcases hRun : p.run exec s with ⟨_ | a, t⟩ <;> rw [hRun] at h <;> exact h

/-- A condition that every success has and no failure has says when the program succeeds. -/
theorem fst_eq_ok_iff_of_wp {p : Program σ ω ε ρ PUnit} {C : Prop}
    (h : p.wp exec (fun _ _ => C) (fun _ _ => ¬ C) s) : (p.run exec s).1 = .ok .unit ↔ C := by
  rw [wp] at h
  rcases hRun : p.run exec s with ⟨_ | a, t⟩ <;> rw [hRun] at h
  · exact ⟨nofun, fun hC => absurd hC h⟩
  · exact ⟨fun _ => h, fun _ => rfl⟩

/-- What the calls preserve a program preserves, whether it fails or not. -/
theorem invariant_run {I : σ → Prop} (hI : ∀ op s, I s → I (exec op s).2)
    (p : Program σ ω ε ρ α) {s : σ} (hs : I s) : I (p.run exec s).2 := by
  induction p generalizing s with
  | ret a => exact hs
  | fail e => exact hs
  | look k ih => exact ih s hs
  | call op k ih => exact ih _ (hI op s hs)

end Program

end Exosuit.Lib
