import Mathlib.Logic.Function.Basic
import Exosuit.Lib.Run

/-!
# Interleaved threads over a shared state

Each thread has a local control state and one local step function; a step of the
system is a local step of one thread. An invariant is given as a condition on the
shared state together with an assertion of each thread, and is proved from the
local steps: the thread that moves re-establishes both, and no other assertion
is disturbed.
-/

namespace Exosuit.Lib

/-- Local states of all threads and the state they share. -/
structure Interleaving (ι L S : Type*) where
  shared : S
  thread : ι → L

namespace Interleaving

variable {ι L S α : Type*} [DecidableEq ι]

def step (move : ι → α → L → S → Option (L × S)) (s : Interleaving ι L S) (a : ι × α) :
    Option (Interleaving ι L S) :=
  (move a.1 a.2 (s.thread a.1) s.shared).map fun r =>
    ⟨r.2, Function.update s.thread a.1 r.1⟩

variable {move : ι → α → L → S → Option (L × S)}

theorem step_eq_some {s t : Interleaving ι L S} {a : ι × α} :
    step move s a = some t ↔ ∃ l w, move a.1 a.2 (s.thread a.1) s.shared = some (l, w) ∧
      t = ⟨w, Function.update s.thread a.1 l⟩ := by
  unfold step
  rw [Option.map_eq_some_iff]
  constructor
  · rintro ⟨⟨l, w⟩, hLocal, rfl⟩
    exact ⟨l, w, hLocal, rfl⟩
  · rintro ⟨l, w, hLocal, rfl⟩
    exact ⟨(l, w), hLocal, rfl⟩

/-- The shared condition and every thread's own assertion. -/
def Holds (G : S → Prop) (A : ι → L → S → Prop) (s : Interleaving ι L S) : Prop :=
  G s.shared ∧ ∀ i, A i (s.thread i) s.shared

variable {G : S → Prop} {A : ι → L → S → Prop}

theorem holds_step {s t : Interleaving ι L S} {a : ι × α}
    (hLocal : ∀ l w, move a.1 a.2 (s.thread a.1) s.shared = some (l, w) → G w ∧ A a.1 l w)
    (hOthers : ∀ l w j, j ≠ a.1 → A j (s.thread j) s.shared →
      move a.1 a.2 (s.thread a.1) s.shared = some (l, w) → A j (s.thread j) w)
    (hs : Holds G A s) (hStep : step move s a = some t) : Holds G A t := by
  obtain ⟨l, w, hMove, rfl⟩ := step_eq_some.mp hStep
  obtain ⟨hShared, hOwn⟩ := hLocal l w hMove
  refine ⟨hShared, fun j => ?_⟩
  by_cases hj : j = a.1
  · subst hj
    simpa using hOwn
  · have hOther := hOthers l w j hj (hs.2 j) hMove
    simpa [Function.update_of_ne hj] using hOther

/-! ## Views -/

variable {L' S' : Type*}

/-- What an observer sees of the threads and of the shared state. -/
def view (f : L → L') (g : S → S') (s : Interleaving ι L S) : Interleaving ι L' S' :=
  ⟨g s.shared, fun i => f (s.thread i)⟩

theorem step_congr_view {β : Type*} {f : L → L'} {g : S → S'} {h : α → β}
    (hMove : ∀ i a a' l l' w w', h a = h a' → f l = f l' → g w = g w' →
      (move i a l w).map (Prod.map f g) = (move i a' l' w').map (Prod.map f g))
    {s s' : Interleaving ι L S} {a a' : ι × α} (hs : s.view f g = s'.view f g)
    (ha : Prod.map id h a = Prod.map id h a') :
    (step move s a).map (view f g) = (step move s' a').map (view f g) := by
  obtain ⟨i, a⟩ := a
  obtain ⟨i', a'⟩ := a'
  simp only [Prod.map_apply, id_eq, Prod.mk.injEq] at ha
  obtain ⟨rfl, hLabel⟩ := ha
  have hThread : ∀ j, f (s.thread j) = f (s'.thread j) := fun j => congrFun (congrArg thread hs) j
  have hLocal := hMove i a a' (s.thread i) (s'.thread i) s.shared s'.shared hLabel (hThread i)
    (congrArg shared hs)
  have hUpdate : ∀ (u : Interleaving ι L S) (r : L × S),
      view f g ⟨r.2, Function.update u.thread i r.1⟩ =
        ⟨(Prod.map f g r).2, Function.update (fun j => f (u.thread j)) i (Prod.map f g r).1⟩ := by
    intro u r
    exact congrArg (Interleaving.mk (g r.2)) (Function.comp_update f u.thread i r.1)
  have hView : ∀ (u : Interleaving ι L S) (o : Option (L × S)),
      (o.map fun r => (⟨r.2, Function.update u.thread i r.1⟩ : Interleaving ι L S)).map (view f g) =
        (o.map (Prod.map f g)).map fun q => ⟨q.2, Function.update (fun j => f (u.thread j)) i q.1⟩ := by
    intro u o
    rw [Option.map_map, Option.map_map]
    exact congrArg (fun k => o.map k) (funext (hUpdate u))
  dsimp only [step]
  rw [hView, hView, hLocal, funext hThread]

end Interleaving

end Exosuit.Lib
