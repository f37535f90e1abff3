import Exosuit.Lib.Inverse
import Exosuit.Workbench.Evictions

/-!
# The registry of workspaces

What the maps of registered workspaces promise each other and the origin bindings, how their
generations advance, and that every locked section that enters, removes or evicts a workspace
keeps to it.
-/

namespace Exosuit.Workbench

open Lib (Table)
open WorkbenchHostInner

structure Registered (state : WorkbenchState) : Prop where
  inverse : Table.Indexes state.workspacesByRoot state.workspacesByKey (·.root)
  keyed : state.workspacesByKey.All fun key w => w.key = key
  generations : state.workspaceRegistrationGenerations.All fun key _ => key ∈ state.workspacesByKey

def namesRegistered (state : WorkbenchState) (b : WorkbenchEntryBinding) : Bool :=
  b.workspaceKey.all fun key => decide (key ∈ state.workspacesByKey)

def Bound (state : WorkbenchState) : Prop :=
  state.originBindings.All fun _ b => namesRegistered state b = true

/-- No registration has a new generation, or one has the next. -/
inductive Numbered (s s' : WorkbenchState) : Prop
  | kept (hNext : s'.nextWorkspaceRegistrationGeneration = s.nextWorkspaceRegistrationGeneration)
      (hKept : ∀ key g, s'.workspaceRegistrationGenerations.lookup key = some g →
        s.workspaceRegistrationGenerations.lookup key = some g)
  | numbered (new : String)
      (hNext : s'.nextWorkspaceRegistrationGeneration =
        saturatingAdd s.nextWorkspaceRegistrationGeneration 1)
      (hKept : ∀ key g, s'.workspaceRegistrationGenerations.lookup key = some g →
        s.workspaceRegistrationGenerations.lookup key = some g ∨
          key = new ∧ g = s'.nextWorkspaceRegistrationGeneration)

theorem namesRegistered_iff {state : WorkbenchState} {b : WorkbenchEntryBinding} :
    namesRegistered state b = true ↔ ∀ key, b.workspaceKey = some key → key ∈ state.workspacesByKey := by
  unfold namesRegistered
  cases b.workspaceKey <;> simp

theorem Numbered.refl (s : WorkbenchState) : Numbered s s := .kept rfl fun _ _ h => h

/-- Dropping generations afterwards changes nothing about the new one. -/
theorem Numbered.fewer {s t t' : WorkbenchState} (h : Numbered s t)
    (hNext : t'.nextWorkspaceRegistrationGeneration = t.nextWorkspaceRegistrationGeneration)
    (hFewer : ∀ key g, t'.workspaceRegistrationGenerations.lookup key = some g →
      t.workspaceRegistrationGenerations.lookup key = some g) : Numbered s t' := by
  cases h with
  | kept hSame hKept => exact .kept (hNext.trans hSame) fun key g hg => hKept key g (hFewer key g hg)
  | numbered new hNumber hKept =>
    refine .numbered new (hNext.trans hNumber) fun key g hg => ?_
    rw [hNext]
    exact hKept key g (hFewer key g hg)

theorem Bound.release {s t : WorkbenchState} {gone : List String} (h : Bound s)
    (hSame : t.originBindings = s.originBindings)
    (hStayed : ∀ key ∈ s.workspacesByKey, key ∈ t.workspacesByKey ∨ key ∈ gone) :
    Bound (releaseBindings t gone) := by
  intro origin b hb
  obtain ⟨hLookup, hKeep⟩ := Table.lookup_retain_eq_some.mp hb
  rw [hSame] at hLookup
  refine namesRegistered_iff.mpr fun key hKey => ?_
  have hNot : key ∉ gone := by
    rw [hKey] at hKeep
    exact of_decide_eq_true hKeep
  exact (hStayed key (namesRegistered_iff.mp (h origin b hLookup) key hKey)).resolve_right hNot

/-- The maps agree, and no origin is bound to a workspace that is not registered. -/
structure RegistrySound (state : WorkbenchState) : Prop where
  registered : Registered state
  bound : Bound state

/-- A section that gives out no generation. -/
structure Kept (s t : WorkbenchState) : Prop where
  sound : RegistrySound t
  next : t.nextWorkspaceRegistrationGeneration = s.nextWorkspaceRegistrationGeneration
  generations : ∀ key g, t.workspaceRegistrationGenerations.lookup key = some g →
    s.workspaceRegistrationGenerations.lookup key = some g

theorem Kept.trans {s t u : WorkbenchState} (h : Kept s t) (h' : Kept t u) : Kept s u :=
  ⟨h'.sound, h'.next.trans h.next, fun key g hg => h.generations key g (h'.generations key g hg)⟩

structure SameRegistry (s t : WorkbenchState) : Prop where
  roots : t.workspacesByRoot = s.workspacesByRoot
  keys : t.workspacesByKey = s.workspacesByKey
  generations : t.workspaceRegistrationGenerations = s.workspaceRegistrationGenerations
  next : t.nextWorkspaceRegistrationGeneration = s.nextWorkspaceRegistrationGeneration
  bindings : ∀ origin b, t.originBindings.lookup origin = some b →
    s.originBindings.lookup origin = some b

theorem SameRegistry.of_eq {s t : WorkbenchState} (hRoots : t.workspacesByRoot = s.workspacesByRoot)
    (hKeys : t.workspacesByKey = s.workspacesByKey)
    (hGenerations : t.workspaceRegistrationGenerations = s.workspaceRegistrationGenerations)
    (hNext : t.nextWorkspaceRegistrationGeneration = s.nextWorkspaceRegistrationGeneration)
    (hBindings : t.originBindings = s.originBindings) : SameRegistry s t :=
  ⟨hRoots, hKeys, hGenerations, hNext, fun _ _ h => hBindings ▸ h⟩

theorem SameRegistry.refl (s : WorkbenchState) : SameRegistry s s := .of_eq rfl rfl rfl rfl rfl

theorem SameRegistry.trans {s t u : WorkbenchState} (h : SameRegistry s t) (h' : SameRegistry t u) :
    SameRegistry s u :=
  ⟨h'.roots.trans h.roots, h'.keys.trans h.keys, h'.generations.trans h.generations,
    h'.next.trans h.next, fun origin b hb => h.bindings origin b (h'.bindings origin b hb)⟩

theorem SameRegistry.registered {s t : WorkbenchState} (h : SameRegistry s t) (hs : Registered s) :
    Registered t where
  inverse := by
    rw [h.roots, h.keys]
    exact hs.inverse
  keyed := by
    rw [h.keys]
    exact hs.keyed
  generations := by
    rw [h.generations, h.keys]
    exact hs.generations

theorem SameRegistry.kept {s t : WorkbenchState} (h : SameRegistry s t) (hs : RegistrySound s) :
    Kept s t where
  sound := by
    refine ⟨h.registered hs.registered, fun origin b hb => ?_⟩
    have hNames := hs.bound origin b (h.bindings origin b hb)
    unfold namesRegistered at hNames ⊢
    rwa [h.keys]
  next := h.next
  generations key g hg := by rwa [h.generations] at hg

/-! ## Entering -/

theorem mem_insertRegistration {state : WorkbenchState} {w : WorkspaceRegistration} {key : String}
    (h : key ∈ state.workspacesByKey) : key ∈ (insertRegistration state w).workspacesByKey :=
  (AList.mem_insert _).mpr (.inr h)

theorem Registered.insertRegistration {state : WorkbenchState} {w : WorkspaceRegistration}
    (hInverse : Table.Indexes state.workspacesByRoot state.workspacesByKey (·.root))
    (hKeyed : state.workspacesByKey.All fun key w => w.key = key)
    (hGenerations : state.workspaceRegistrationGenerations.All fun key _ =>
      key = w.key ∨ key ∈ state.workspacesByKey)
    (hRoot : ∀ key, state.workspacesByRoot.lookup w.root = some key → key = w.key)
    (hKey : ∀ old, state.workspacesByKey.lookup w.key = some old → old.root = w.root) :
    Registered (insertRegistration state w) where
  inverse := hInverse.insert hRoot hKey
  keyed := hKeyed.insert rfl
  generations key g hg := (AList.mem_insert _).mpr (hGenerations key g hg)

theorem Registered.insertDiscovered {state : WorkbenchState} (h : Registered state)
    (w : WorkspaceRegistration) : Registered (insertDiscoveredWorkspace state w) := by
  unfold insertDiscoveredWorkspace
  split
  · exact h
  · next hNew =>
    obtain ⟨hRoot, hKey⟩ := not_or.mp hNew
    refine .insertRegistration h.inverse h.keyed (fun key g hg => .inr (h.generations key g hg)) ?_ ?_
    · intro key hLookup
      exact absurd (AList.lookup_isSome.mp (hLookup ▸ rfl)) hRoot
    · intro old hLookup
      exact absurd (AList.lookup_isSome.mp (hLookup ▸ rfl)) hKey

structure Entered (s t : WorkbenchState) : Prop where
  registered : Registered s → Registered t
  keys : ∀ key ∈ s.workspacesByKey, key ∈ t.workspacesByKey
  bindings : t.originBindings = s.originBindings
  generations : t.workspaceRegistrationGenerations = s.workspaceRegistrationGenerations
  next : t.nextWorkspaceRegistrationGeneration = s.nextWorkspaceRegistrationGeneration

theorem entered_insertDiscovered (ws : List WorkspaceRegistration) (state : WorkbenchState) :
    Entered state (ws.foldl insertDiscoveredWorkspace state) := by
  induction ws generalizing state with
  | nil => exact ⟨id, fun _ h => h, rfl, rfl, rfl⟩
  | cons w ws ih =>
    have hRest := ih (insertDiscoveredWorkspace state w)
    have hSame : Entered state (insertDiscoveredWorkspace state w) := by
      refine ⟨fun h => h.insertDiscovered w, fun key hKey => ?_, ?_, ?_, ?_⟩
      all_goals unfold insertDiscoveredWorkspace; split
      any_goals rfl
      · exact hKey
      · exact mem_insertRegistration hKey
    exact ⟨fun h => hRest.registered (hSame.registered h),
      fun key hKey => hRest.keys key (hSame.keys key hKey), hRest.bindings.trans hSame.bindings,
      hRest.generations.trans hSame.generations, hRest.next.trans hSame.next⟩

theorem Entered.kept {s t : WorkbenchState} (h : Entered s t) (hs : RegistrySound s) : Kept s t where
  sound := by
    refine ⟨h.registered hs.registered, fun origin b hb => ?_⟩
    rw [h.bindings] at hb
    refine namesRegistered_iff.mpr fun key hKey => ?_
    exact h.keys key (namesRegistered_iff.mp (hs.bound origin b hb) key hKey)
  next := h.next
  generations key g hg := by rwa [h.generations] at hg

/-! ## Leaving -/

/-- What a section leaves of the registry that only loses registrations, those of `gone`. -/
structure Left (gone : List String) (s t : WorkbenchState) : Prop where
  registered : Registered s → Registered t
  keys : ∀ key ∈ s.workspacesByKey, key ∈ t.workspacesByKey ∨ key ∈ gone
  bindings : t.originBindings = s.originBindings
  generations : ∀ key g, t.workspaceRegistrationGenerations.lookup key = some g →
    s.workspaceRegistrationGenerations.lookup key = some g
  next : t.nextWorkspaceRegistrationGeneration = s.nextWorkspaceRegistrationGeneration

theorem Left.refl (s : WorkbenchState) : Left [] s s := ⟨id, fun _ h => .inl h, rfl, fun _ _ h => h, rfl⟩

theorem Left.kept {gone : List String} {s t : WorkbenchState} (h : Left gone s t)
    (hs : RegistrySound s) : Kept s (releaseBindings t gone) where
  sound := by
    have ht := h.registered hs.registered
    exact ⟨⟨ht.inverse, ht.keyed, ht.generations⟩, hs.bound.release h.bindings h.keys⟩
  next := h.next
  generations := h.generations

theorem Registered.removeRoot {state : WorkbenchState} (h : Registered state) (root : String) :
    Registered (removeRoot state root) := by
  unfold WorkbenchHostInner.removeRoot
  split
  · next key hKey =>
    refine ⟨h.inverse.erase hKey, h.keyed.erase key, fun other g hg => ?_⟩
    rw [Table.lookup_erase] at hg
    split at hg
    · cases hg
    · next hOther => exact AList.mem_erase.mpr ⟨hOther, h.generations other g hg⟩
  · exact h

theorem removeRoot_cases (state : WorkbenchState) (root : String) :
    Left (state.workspacesByRoot.lookup root).toList state (removeRoot state root) ∧
      ∀ r key, (removeRoot state root).workspacesByRoot.lookup r = some key →
        state.workspacesByRoot.lookup r = some key := by
  have hErase : ∀ {α : Type} {t : Table String α} {gone k : String} {a : α},
      (AList.erase gone t).lookup k = some a → t.lookup k = some a := by
    intro α t gone k a h
    rw [Table.lookup_erase] at h
    split at h
    · cases h
    · exact h
  refine ⟨⟨fun h => h.removeRoot root, fun key hMem => ?_, ?_, fun key g hg => ?_, ?_⟩, fun r key hr => ?_⟩
  all_goals unfold WorkbenchHostInner.removeRoot at *
  all_goals cases hKey : state.workspacesByRoot.lookup root
  any_goals rfl
  all_goals simp only [hKey] at *
  · exact .inl hMem
  · next gone =>
    by_cases hGone : key = gone
    · exact .inr (by simp [hGone])
    · exact .inl (AList.mem_erase.mpr ⟨hGone, hMem⟩)
  · exact hg
  · exact hErase hg
  · exact hr
  · exact hErase hr

theorem left_removeRoots (roots : List String) (state : WorkbenchState) :
    Left (roots.filterMap fun root => state.workspacesByRoot.lookup root) state
      (roots.foldl removeRoot state) := by
  induction roots generalizing state with
  | nil => exact .refl state
  | cons root roots ih =>
    obtain ⟨hFirst, hRoots⟩ := removeRoot_cases state root
    have hRest := ih (removeRoot state root)
    refine ⟨fun h => hRest.registered (hFirst.registered h), fun key hKey => ?_,
      hRest.bindings.trans hFirst.bindings, fun key g hg => hFirst.generations key g
        (hRest.generations key g hg), hRest.next.trans hFirst.next⟩
    rw [List.filterMap_cons]
    rcases hFirst.keys key hKey with hStayed | hGone
    · refine (hRest.keys key hStayed).imp id fun hMem => ?_
      obtain ⟨r, hr, hLookup⟩ := List.mem_filterMap.mp hMem
      have hOld : key ∈ roots.filterMap fun root => state.workspacesByRoot.lookup root :=
        List.mem_filterMap.mpr ⟨r, hr, hRoots r key hLookup⟩
      cases state.workspacesByRoot.lookup root with
      | none => exact hOld
      | some first => exact List.mem_cons_of_mem _ hOld
    · right
      rw [Option.mem_toList] at hGone
      rw [Option.mem_def.mp hGone]
      exact List.mem_cons_self

theorem Registered.retainKeys {state : WorkbenchState} (h : Registered state) (keep : String → Bool) :
    Registered (retainKeys state keep) where
  inverse := h.inverse.retain keep
  keyed := h.keyed.retain _
  generations key g hg := by
    obtain ⟨hLookup, hKeep⟩ := Table.lookup_retain_eq_some.mp hg
    exact Table.mem_retain_key.mpr ⟨h.generations key g hLookup, hKeep⟩

theorem left_eviction {state : WorkbenchState} (h : Registered state) (current : String) (now : Nat) :
    Left (retainProjectWorkspaceLimit state current now).2 state
      (retainProjectWorkspaceLimit state current now).1 := by
  obtain ⟨-, hSame⟩ | ⟨retained, hRetain, -, -⟩ := retainProjectWorkspaceLimit_cases h.keyed current now
  · rw [hSame]
    exact .refl state
  · rw [hRetain]
    refine ⟨fun h => h.retainKeys _, fun key hKey => ?_, rfl, fun key g hg =>
      (Table.lookup_retain_eq_some.mp hg).1, rfl⟩
    by_cases hIn : key ∈ retained
    · exact .inl (Table.mem_retain_key.mpr ⟨hKey, decide_eq_true hIn⟩)
    · exact .inr (List.mem_filter.mpr ⟨hKey, decide_eq_true hIn⟩)

/-! ## The sections -/

theorem sameRegistry_adopt (h : WorkbenchHostInner) (w : StoreWrite) (a : Authorizations)
    (gone : WorkbenchSession → Bool) : SameRegistry h.state (h.adopt w a gone).1.state := by
  cases w <;> exact .of_eq rfl rfl rfl rfl rfl

theorem sameRegistry_invalidate (h : WorkbenchHostInner) (keys : List String) (now : Nat)
    (w : StoreWrite) :
    SameRegistry h.state (h.invalidateRemovedWorkspaceAuthorizations keys now w).1.state := by
  unfold invalidateRemovedWorkspaceAuthorizations
  dsimp only
  split
  · exact .refl _
  · split
    · exact .of_eq rfl rfl rfl rfl rfl
    · exact sameRegistry_adopt ..

theorem kept_removeRoots {h : WorkbenchHostInner} (hs : RegistrySound h.state) (roots : List String)
    (now : Nat) (w : StoreWrite) : Kept h.state (h.removeRoots roots now w).1.state := by
  have hSame := sameRegistry_invalidate h
    (roots.filterMap fun root => h.state.workspacesByRoot.lookup root) now w
  have hFirst := hSame.kept hs
  unfold removeRoots
  dsimp only
  split
  · next hInvalidate =>
    rw [hInvalidate] at hFirst
    exact hFirst
  · next invalidated hInvalidate =>
    rw [hInvalidate] at hFirst hSame
    have hLeft := left_removeRoots roots invalidated.state
    rw [hSame.roots] at hLeft
    exact hFirst.trans (hLeft.kept hFirst.sound)

theorem kept_eviction {s : WorkbenchState} (hs : RegistrySound s) (current : String) (now : Nat) :
    Kept s (releaseBindings (retainProjectWorkspaceLimit s current now).1
      (retainProjectWorkspaceLimit s current now).2) :=
  (left_eviction hs.registered current now).kept hs

def registering (env : Env) (state : WorkbenchState) (root : String) (git : GitSnapshot)
    (now : Nat) : Option (WorkbenchState × WorkspaceRegistration) :=
  let granted := (state.sessionGrants.values.filter fun grant =>
    grant.projectId == env.projectId && grant.workspaceRoot == root && grant.isLive now).argmax
      (·.lastActivity)
  let key := ((state.workspacesByRoot.lookup root).or (granted.map (·.workspaceKey))).getD
    (env.deterministicWorkspaceKey env.projectId root)
  let previous := state.workspacesByKey.lookup key
  if previous.any fun workspace => workspace.root != root then none
  else
    let workspace := observedRegistration previous key root git now now
    some (insertRegistration (nextGeneration state key) workspace, workspace)

theorem registerWorkspaceWithGit_eq (env : Env) (state : WorkbenchState) (root : String)
    (git : GitSnapshot) (now : Nat) : registerWorkspaceWithGit env state root git now =
      (registering env state root git now).map fun r =>
        (releaseBindings (retainProjectWorkspaceLimit r.1 r.2.key now).1
          (retainProjectWorkspaceLimit r.1 r.2.key now).2, r.2) := by
  unfold registerWorkspaceWithGit registering
  dsimp only
  split <;> rfl

theorem nextGeneration_cases (state : WorkbenchState) (key : String) :
    Numbered state (nextGeneration state key) ∧
      (nextGeneration state key).workspacesByRoot = state.workspacesByRoot ∧
      (nextGeneration state key).workspacesByKey = state.workspacesByKey ∧
      (nextGeneration state key).originBindings = state.originBindings ∧
      (Registered state → (nextGeneration state key).workspaceRegistrationGenerations.All
        fun other _ => other = key ∨ other ∈ state.workspacesByKey) := by
  unfold nextGeneration
  dsimp only
  split
  · exact ⟨.refl state, rfl, rfl, rfl, fun h other g hg => .inr (h.generations other g hg)⟩
  · refine ⟨.numbered key rfl fun other g hg => ?_, rfl, rfl, rfl, fun h other g hg => ?_⟩
    all_goals
      dsimp only at hg ⊢
      rw [Table.lookup_insert] at hg
      split at hg
    · next hKey => exact .inr ⟨hKey, (Option.some.inj hg).symm⟩
    · exact .inl hg
    · next hKey => exact .inl hKey
    · exact .inr (h.generations other g hg)

theorem registering_sound {env : Env} {s t : WorkbenchState} {root : String} {git : GitSnapshot}
    {now : Nat} {w : WorkspaceRegistration} (hs : RegistrySound s)
    (h : registering env s root git now = some (t, w)) : RegistrySound t ∧ Numbered s t := by
  unfold registering at h
  dsimp only at h
  generalize Option.map _ _ = granted at h
  generalize hKey : Option.getD _ _ = key at h
  split at h
  · cases h
  · next hCollision =>
    obtain ⟨hNumbered, hRoots, hKeys, hBindings, hGenerations⟩ := nextGeneration_cases s key
    cases h
    have hRegistered : Registered (insertRegistration (nextGeneration s key)
        (observedRegistration (s.workspacesByKey.lookup key) key root git now now)) := by
      apply Registered.insertRegistration
      · rw [hRoots, hKeys]
        exact hs.registered.inverse
      · rw [hKeys]
        exact hs.registered.keyed
      · rw [hKeys]
        exact hGenerations hs.registered
      · intro other hOther
        rw [hRoots] at hOther
        change s.workspacesByRoot.lookup root = some other at hOther
        rw [hOther] at hKey
        exact hKey
      · intro old hOld
        rw [hKeys] at hOld
        change s.workspacesByKey.lookup key = some old at hOld
        rw [hOld, Option.any_some, bne_iff_ne, not_not] at hCollision
        exact hCollision
    refine ⟨⟨hRegistered, fun origin b hb => namesRegistered_iff.mpr fun other hOther => ?_⟩,
      hNumbered.fewer rfl fun _ _ hg => hg⟩
    change (nextGeneration s key).originBindings.lookup origin = some b at hb
    rw [hBindings] at hb
    apply mem_insertRegistration
    rw [hKeys]
    exact namesRegistered_iff.mp (hs.bound origin b hb) other hOther

theorem registerWorkspaceWithGit_sound {env : Env} {s t : WorkbenchState} {root : String}
    {git : GitSnapshot} {now : Nat} {w : WorkspaceRegistration} (hs : RegistrySound s)
    (h : registerWorkspaceWithGit env s root git now = some (t, w)) :
    RegistrySound t ∧ Numbered s t := by
  rw [registerWorkspaceWithGit_eq] at h
  obtain ⟨⟨before, workspace⟩, hBefore, hAfter⟩ := Option.map_eq_some_iff.mp h
  cases hAfter
  obtain ⟨hSound, hNumbered⟩ := registering_sound hs hBefore
  have hKept := kept_eviction hSound workspace.key now
  exact ⟨hKept.sound, hNumbered.fewer hKept.next hKept.generations⟩

def restoring (h : WorkbenchHostInner) (credentialDigest : String) (grant : WorkbenchSessionGrant)
    (git : GitSnapshot) (now : Nat) : Option WorkbenchState :=
  let state := h.state
  let root := grant.workspaceRoot
  let entry := grant.entry.getD
    (.direct ((state.host.map (·.origin)).getD ""))
  if state.sessionGrants.lookup credentialDigest ≠ some grant ∨
      (state.workspacesByRoot.lookup root).any (· != grant.workspaceKey) ∨
      ((state.workspacesByKey.lookup grant.workspaceKey).any fun w => w.root != root) ∨
      entry.canonicalOrigin = "" then none
  else
    let previous := state.workspacesByKey.lookup grant.workspaceKey
    some (insertRegistration state
      (observedRegistration previous grant.workspaceKey root git now grant.createdAt))

theorem sameRegistry_restoreSession (h : WorkbenchHostInner) (credentialDigest : String)
    (grant : WorkbenchSessionGrant) (git : GitSnapshot) (now : Nat) :
    SameRegistry ((restoring h credentialDigest grant git now).elim h.state fun t =>
        releaseBindings (retainProjectWorkspaceLimit t grant.workspaceKey now).1
          (retainProjectWorkspaceLimit t grant.workspaceKey now).2)
      (restoreSession h credentialDigest grant git now).state := by
  unfold restoring restoreSession
  dsimp only
  split
  · exact .refl _
  · exact .of_eq rfl rfl rfl rfl rfl

theorem restoring_kept {h : WorkbenchHostInner} {credentialDigest : String}
    {grant : WorkbenchSessionGrant} {git : GitSnapshot} {now : Nat} {t : WorkbenchState}
    (hs : RegistrySound h.state) (hSome : restoring h credentialDigest grant git now = some t) :
    Kept h.state t := by
  unfold restoring at hSome
  dsimp only at hSome
  split at hSome
  · cases hSome
  · next hRefused =>
    simp only [not_or] at hRefused
    obtain ⟨-, hRoot, hKey, -⟩ := hRefused
    cases hSome
    have hRegistered := Registered.insertRegistration hs.registered.inverse hs.registered.keyed
      (w := observedRegistration (h.state.workspacesByKey.lookup grant.workspaceKey)
        grant.workspaceKey grant.workspaceRoot git now grant.createdAt)
      (fun key g hg => .inr (hs.registered.generations key g hg))
      (fun key hLookup => by
        change h.state.workspacesByRoot.lookup grant.workspaceRoot = some key at hLookup
        rw [hLookup, Option.any_some, bne_iff_ne, not_not] at hRoot
        exact hRoot)
      (fun old hLookup => by
        change h.state.workspacesByKey.lookup grant.workspaceKey = some old at hLookup
        rw [hLookup, Option.any_some, bne_iff_ne, not_not] at hKey
        exact hKey)
    refine ⟨⟨hRegistered, fun origin b hb => namesRegistered_iff.mpr fun key hNamed => ?_⟩, rfl,
      fun _ _ hg => hg⟩
    exact mem_insertRegistration (namesRegistered_iff.mp (hs.bound origin b hb) key hNamed)

theorem restoreSession_kept {h : WorkbenchHostInner} (hs : RegistrySound h.state)
    (credentialDigest : String) (grant : WorkbenchSessionGrant) (git : GitSnapshot) (now : Nat) :
    Kept h.state (restoreSession h credentialDigest grant git now).state := by
  have hSame := sameRegistry_restoreSession h credentialDigest grant git now
  cases hSome : restoring h credentialDigest grant git now with
  | none =>
    rw [hSome] at hSame
    exact hSame.kept hs
  | some t =>
    rw [hSome] at hSame
    have hEntered := restoring_kept hs hSome
    have hEvicted := kept_eviction hEntered.sound grant.workspaceKey now
    exact (hEntered.trans hEvicted).trans (hSame.kept hEvicted.sound)

/-- The registrations after what was discovered has entered and what left the index is removed,
before the eviction; `false` when the removal could not be stored. -/
def projecting (h : WorkbenchHostInner) (discovered : List WorkspaceRegistration)
    (worktreeIndex : Option (List String)) (currentRoot : Option String) (now : Nat)
    (w : StoreWrite) : WorkbenchHostInner × Bool :=
  let h := { h with state := discovered.foldl insertDiscoveredWorkspace h.state }
  let removed := match worktreeIndex with
    | none => []
    | some index => h.state.workspacesByRoot.keys.filter fun root =>
      decide (currentRoot ≠ some root) && decide (root ∉ index)
  removeRoots h removed now w

theorem projecting_kept {h : WorkbenchHostInner} (hs : RegistrySound h.state)
    (discovered : List WorkspaceRegistration) (worktreeIndex : Option (List String))
    (currentRoot : Option String) (now : Nat) (w : StoreWrite) :
    Kept h.state (projecting h discovered worktreeIndex currentRoot now w).1.state := by
  have hEntered := (entered_insertDiscovered discovered h.state).kept hs
  have hRemoved := kept_removeRoots
    (h := { h with state := discovered.foldl insertDiscoveredWorkspace h.state }) hEntered.sound
  exact hEntered.trans (hRemoved _ now w)

theorem projectWorkspaceProjections_eq (h : WorkbenchHostInner)
    (discovered : List WorkspaceRegistration) (worktreeIndex : Option (List String))
    (currentRoot : Option String) (current : String) (now : Nat) (w : StoreWrite) :
    projectWorkspaceProjections h discovered worktreeIndex currentRoot current now w =
      match projecting h discovered worktreeIndex currentRoot now w with
      | (h, false) => h
      | (h, true) =>
        let (state, evicted) := retainProjectWorkspaceLimit h.state current now
        { h with state := releaseBindings state evicted } := rfl

theorem projectWorkspaceProjections_kept {h : WorkbenchHostInner} (hs : RegistrySound h.state)
    (discovered : List WorkspaceRegistration) (worktreeIndex : Option (List String))
    (currentRoot : Option String) (current : String) (now : Nat) (w : StoreWrite) :
    Kept h.state
      (projectWorkspaceProjections h discovered worktreeIndex currentRoot current now w).state := by
  have hBefore := projecting_kept hs discovered worktreeIndex currentRoot now w
  rw [projectWorkspaceProjections_eq]
  split
  · next hProject =>
    rw [hProject] at hBefore
    exact hBefore
  · next hProject =>
    rw [hProject] at hBefore
    exact hBefore.trans (kept_eviction hBefore.sound current now)

theorem reconcileDirectWorkspaceMove_kept {h : WorkbenchHostInner} (hs : RegistrySound h.state)
    (workspace : WorkspaceRegistration) (worktreeIndex : Option (List String)) (now : Nat)
    (w : StoreWrite) :
    Kept h.state (reconcileDirectWorkspaceMove h workspace worktreeIndex now w).1.state := by
  cases worktreeIndex with
  | none => exact (SameRegistry.refl _).kept hs
  | some index => exact kept_removeRoots hs _ now w

end Exosuit.Workbench
