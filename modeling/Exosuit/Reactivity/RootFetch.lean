import Exosuit.Reactivity.Roots

/-!
# What a fetch returns

A snapshot is kept under the digest of a trace alone, so two roots with the same
dependencies share it and the one that was registered last is what both fetch.
-/

namespace Exosuit.Roots

open Lib Reactivity Roots.Engine

variable {V : Type} {digest : Trace → String} {depth retentionWindow : Nat} {e e' : Engine V}
  {ops : List (Operation V)} {op : Operation V} {rootId d : String}

/-! ## The history of registrations -/

/-- The root that the operation registers under the digest. -/
def Operation.registers (digest : Trace → String) (d : String) : Operation V → Option (String × Root V)
  | .registerRoot rootId trace value _ _ _ =>
    if digest trace = d then some (rootId, ⟨trace, value, d⟩) else none
  | _ => none

/-- The value that any root was registered with last under the digest. -/
def slotValue (digest : Trace → String) (ops : List (Operation V)) (d : String) : Option V :=
  latest (fun op => (op.registers digest d).map fun entry => entry.2.value) ops

/-- The value that this root was registered with last under the digest. -/
def ownValue (digest : Trace → String) (ops : List (Operation V)) (rootId d : String) : Option V :=
  latest (fun op => (op.registers digest d).bind fun entry =>
    if entry.1 = rootId then some entry.2.value else none) ops

/-- A fetch returns the value that the root itself was registered with last under the digest. -/
def FetchesOwn (digest : Trace → String) (ops : List (Operation V)) (e : Engine V)
    (rootId d : String) : Prop :=
  ∀ value, e.fetchRoot rootId d = .ok value → ownValue digest ops rootId d = some value

/-! ## Snapshots and roots against the history -/

/-- A snapshot is of the last registration under its digest, and a root of its own last one. -/
structure Recorded (digest : Trace → String) (ops : List (Operation V)) (e : Engine V) : Prop where
  snapshots : ∀ d entry, e.snapshots.lookup d = some entry →
    slotValue digest ops d = some entry.1.value
  roots : ∀ rootId root, e.roots.lookup rootId = some root →
    ownValue digest ops rootId root.digest = some root.value

theorem recorded_new : Recorded digest [] (Engine.new retentionWindow : Engine V) :=
  ⟨nofun, nofun⟩

theorem Recorded.of_frame (h : Recorded digest ops e) (hNone : ∀ d, op.registers digest d = none)
    (hSnapshots : e'.snapshots = e.snapshots)
    (hRoots : ∀ id root, e'.roots.lookup id = some root → e.roots.lookup id = some root) :
    Recorded digest (ops ++ [op]) e' := by
  constructor
  · intro d entry hEntry
    rw [slotValue, latest_append, hNone]
    exact h.snapshots d entry (hSnapshots ▸ hEntry)
  · intro rootId root hRoot
    rw [ownValue, latest_append, hNone]
    exact h.roots rootId root (hRoots rootId root hRoot)

theorem Recorded.of_used (h : Recorded digest ops e) (hNone : ∀ d, op.registers digest d = none)
    (hUsed : e.Used e') : Recorded digest (ops ++ [op]) e' := by
  obtain ⟨-, currentState, rfl⟩ := hUsed
  exact h.of_frame hNone rfl fun _ _ => id

theorem snapshots_registerRoot {trace : Trace} {value : V} {isSubscriber : Bool} {stamp now : Nat}
    {entry : Root V × Nat}
    (h : (e.registerRoot digest rootId trace value isSubscriber stamp now).snapshots.lookup d =
      some entry) :
    d = digest trace ∧ entry.1 = ⟨trace, value, digest trace⟩ ∨
      d ≠ digest trace ∧ e.snapshots.lookup d = some entry := by
  obtain ⟨-, currentState, hUsed⟩ := used_foldl_touch trace.entries e
  simp only [registerRoot, setCell, hUsed] at h
  have hEntry := (Table.lookup_retain_eq_some.mp h).1
  rw [Table.lookup_insert] at hEntry
  split at hEntry
  · next hEq => exact .inl ⟨hEq, Option.some.inj hEntry ▸ rfl⟩
  · next hNe => exact .inr ⟨hNe, hEntry⟩

theorem Recorded.registerRoot {trace : Trace} {value : V} {isSubscriber : Bool} {stamp now : Nat}
    (h : Recorded digest ops e) :
    Recorded digest (ops ++ [.registerRoot rootId trace value isSubscriber stamp now])
      (e.registerRoot digest rootId trace value isSubscriber stamp now) := by
  constructor
  · intro d entry hEntry
    rw [slotValue, latest_append, Operation.registers]
    rcases snapshots_registerRoot hEntry with ⟨hEq, hRoot⟩ | ⟨hNe, hOld⟩
    · rw [if_pos hEq.symm, hRoot]
      rfl
    · rw [if_neg (Ne.symm hNe)]
      exact h.snapshots d entry hOld
  · intro id root hRoot
    rw [roots_registerRoot, Table.lookup_insert] at hRoot
    rw [ownValue, latest_append, Operation.registers]
    split at hRoot
    · next hId =>
      obtain rfl := Option.some.inj hRoot
      rw [if_pos rfl, Option.bind_some, if_pos hId.symm]
      rfl
    · next hId =>
      have hOwn : ((if digest trace = root.digest then some (rootId, (⟨trace, value, root.digest⟩ :
          Root V)) else none).bind fun entry =>
            if entry.1 = id then some entry.2.value else none) = none := by
        split
        · exact if_neg (Ne.symm hId)
        · rfl
      rw [hOwn]
      exact h.roots id root hRoot

theorem Recorded.step (h : Recorded digest ops e) (hStep : step digest depth e op = some e') :
    Recorded digest (ops ++ [op]) e' := by
  cases op with
  | registerRoot rootId trace value isSubscriber stamp now =>
    exact Option.some.inj hStep ▸ h.registerRoot
  | removeRoot rootId =>
    exact Option.some.inj hStep ▸ h.of_frame (fun _ => rfl) snapshots_removeRoot
      fun _ _ => lookup_removeRoot
  | invalidateCell cellId =>
    obtain ⟨currentState, sourceIndex, hEq⟩ := invalidateCell_frame (e := e) cellId
    exact Option.some.inj hStep ▸ hEq ▸ h.of_frame (fun _ => rfl) rfl fun _ _ => id
  | endTransaction =>
    obtain ⟨currentState, sourceIndex, hEq⟩ := endTransaction_frame (e := e)
    exact Option.some.inj hStep ▸ hEq ▸ h.of_frame (fun _ => rfl) rfl fun _ _ => id
  | setCell cellId revision =>
    exact Option.some.inj hStep ▸ h.of_frame (fun _ => rfl) rfl fun _ _ => id
  | beginTransaction => exact Option.some.inj hStep ▸ h.of_frame (fun _ => rfl) rfl fun _ _ => id
  | getRevision cellId =>
    obtain ⟨r, hRead, rfl⟩ := Option.map_eq_some_iff.mp hStep
    exact h.of_used (fun _ => rfl) (used_getRevision hRead)
  | validateTrace trace =>
    obtain ⟨r, hRead, rfl⟩ := Option.map_eq_some_iff.mp hStep
    exact h.of_used (fun _ => rfl) (used_validateTrace hRead)
  | validateRoot rootId clientDigest =>
    obtain ⟨r, hRead, rfl⟩ := Option.map_eq_some_iff.mp hStep
    exact h.of_used (fun _ => rfl) (used_validateRoot hRead)

theorem recorded_of_run (hRun : run (step digest depth) (Engine.new retentionWindow) ops = some e) :
    Recorded digest ops e :=
  history_of_step recorded_new (fun _ _ _ _ h hStep => h.step hStep) hRun

/-! ## Fetches -/

/-- A fetch is of the root's own value unless another registration took the digest's snapshot. -/
theorem fetchesOwn_iff (hRun : run (step digest depth) (Engine.new retentionWindow) ops = some e) :
    FetchesOwn digest ops e rootId d ↔
      ((e.snapshots.lookup d).isSome → ownValue digest ops rootId d = slotValue digest ops d) := by
  have hRecorded := recorded_of_run hRun
  constructor
  · intro h hSome
    obtain ⟨entry, hEntry⟩ := Option.isSome_iff_exists.mp hSome
    rw [hRecorded.snapshots d entry hEntry]
    apply h
    rw [fetchRoot, hEntry]
  · intro h value hFetch
    unfold fetchRoot at hFetch
    split at hFetch
    · next root stamp hEntry =>
      rw [h (Option.isSome_iff_exists.mpr ⟨_, hEntry⟩), hRecorded.snapshots d _ hEntry]
      exact congrArg some (Except.ok.inj hFetch)
    · next root hNone hRoot =>
      split at hFetch
      · next hDigest =>
        rw [← hDigest, hRecorded.roots rootId root hRoot]
        exact congrArg some (Except.ok.inj hFetch)
      · cases hFetch
    · cases hFetch

/-- Two roots that depend on nothing. -/
def sharedDigest : List (Operation Nat) :=
  [.registerRoot "a" .new 1 true 0 0, .registerRoot "b" .new 2 true 0 0]

theorem fetchesOwn_sample : ∃ e, run (step (fun _ => "d") 1) (Engine.new 60) sharedDigest = some e ∧
    (FetchesOwn (fun _ => "d") sharedDigest e "b" "d" ↔ ((e.snapshots.lookup "d").isSome →
      ownValue (fun _ => "d") sharedDigest "b" "d" = slotValue (fun _ => "d") sharedDigest "d")) :=
  ⟨_, rfl, @fetchesOwn_iff _ _ 1 _ _ _ _ _ rfl⟩

/-- The first root's fetch returns the second's value. -/
theorem not_fetchesOwn_of_shared : ∃ e, run (step (fun _ => "d") 1) (Engine.new 60) sharedDigest =
    some e ∧ ¬ FetchesOwn (fun _ => "d") sharedDigest e "a" "d" := by
  refine ⟨_, rfl, fun h => ?_⟩
  exact absurd (h 2 rfl) (by decide)

end Exosuit.Roots
