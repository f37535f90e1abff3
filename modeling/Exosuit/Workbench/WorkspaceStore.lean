import Exosuit.Workbench.Pairings
import Exosuit.Workbench.Registry

/-!
# Reading the workspace store

A new host manager registers what the workspace store lists, each under the next generation.
Whatever the file holds, the registrations it starts from have a key and a root of their own.
-/

namespace Exosuit.Workbench

open Lib (Table)
open WorkbenchHostInner

def WORKSPACE_STORE_SCHEMA_VERSION : Nat := 1

/-- An entry of the store has the fields of a registration. -/
structure WorkbenchWorkspaceStoreV1 where
  schemaVersion : Nat
  projectId : String
  workspaces : List WorkspaceRegistration

def firstOfTheirKind : List String → List String → List WorkspaceRegistration →
    List WorkspaceRegistration
  | _, _, [] => []
  | keys, roots, workspace :: rest =>
    if isAbsolute workspace.root && validPublicToken workspace.key then
      if workspace.key ∈ keys then firstOfTheirKind keys roots rest
      else if workspace.root ∈ roots then firstOfTheirKind (workspace.key :: keys) roots rest
      else workspace :: firstOfTheirKind (workspace.key :: keys) (workspace.root :: roots) rest
    else firstOfTheirKind keys roots rest

/-- `none` is a file that is missing, unreadable or not a store. -/
def readWorkspaceStore (projectId : String) (file : Option WorkbenchWorkspaceStoreV1) :
    List WorkspaceRegistration :=
  match file with
  | none => []
  | some store =>
    if store.schemaVersion ≠ WORKSPACE_STORE_SCHEMA_VERSION ∨ store.projectId ≠ projectId then []
    else (firstOfTheirKind [] [] store.workspaces).take MAX_PROJECT_WORKSPACES

def loadWorkspace (state : WorkbenchState) (workspace : WorkspaceRegistration) : WorkbenchState :=
  let generation := saturatingAdd state.nextWorkspaceRegistrationGeneration 1
  { state with
    nextWorkspaceRegistrationGeneration := generation
    workspaceRegistrationGenerations :=
      AList.insert workspace.key generation state.workspaceRegistrationGenerations
    workspacesByRoot := AList.insert workspace.root workspace.key state.workspacesByRoot
    workspacesByKey := AList.insert workspace.key workspace state.workspacesByKey }

def blankState (authorizations : Authorizations) : WorkbenchState where
  toAuthorizations := authorizations
  host := none
  originBindings := ∅
  workspacesByRoot := ∅
  workspacesByKey := ∅
  workspaceRegistrationGenerations := ∅
  nextWorkspaceRegistrationGeneration := 0
  pendingCapabilities := ∅
  launchReplays := ∅
  sessions := ∅

/-- The state of a new manager over both stores. -/
def loadedState (env : Env) (store : Authorizations) (file : Option WorkbenchWorkspaceStoreV1)
    (now : Nat) : WorkbenchState :=
  (readWorkspaceStore env.projectId file).foldl loadWorkspace
    (blankState (readAuthorizationStore env store now))

/-! ## Keys and roots of their own -/

theorem firstOfTheirKind_distinct (keys roots : List String) (ws : List WorkspaceRegistration) :
    ((firstOfTheirKind keys roots ws).Pairwise fun w w' => w.key ≠ w'.key ∧ w.root ≠ w'.root) ∧
      ∀ w ∈ firstOfTheirKind keys roots ws, w.key ∉ keys ∧ w.root ∉ roots := by
  fun_induction firstOfTheirKind keys roots ws with
  | case1 => exact ⟨.nil, nofun⟩
  | case2 keys roots workspace rest hValid hKey ih => exact ih
  | case3 keys roots workspace rest hValid hKey hRoot ih =>
    exact ⟨ih.1, fun w hw => ⟨fun hOld => (ih.2 w hw).1 (List.mem_cons_of_mem _ hOld), (ih.2 w hw).2⟩⟩
  | case4 keys roots workspace rest hValid hKey hRoot ih =>
    refine ⟨List.pairwise_cons.mpr ⟨fun w hw => ?_, ih.1⟩, fun w hw => ?_⟩
    · obtain ⟨hNewKey, hNewRoot⟩ := ih.2 w hw
      exact ⟨fun hEq => hNewKey (hEq ▸ List.mem_cons_self), fun hEq => hNewRoot (hEq ▸ List.mem_cons_self)⟩
    · rcases List.mem_cons.mp hw with rfl | hRest
      · exact ⟨hKey, hRoot⟩
      · obtain ⟨hNewKey, hNewRoot⟩ := ih.2 w hRest
        exact ⟨fun hOld => hNewKey (List.mem_cons_of_mem _ hOld),
          fun hOld => hNewRoot (List.mem_cons_of_mem _ hOld)⟩
  | case5 keys roots workspace rest hInvalid ih => exact ih

theorem readWorkspaceStore_distinct (projectId : String) (file : Option WorkbenchWorkspaceStoreV1) :
    ((readWorkspaceStore projectId file).Pairwise fun w w' => w.key ≠ w'.key ∧ w.root ≠ w'.root) ∧
      (readWorkspaceStore projectId file).length ≤ MAX_PROJECT_WORKSPACES := by
  unfold readWorkspaceStore
  split
  · exact ⟨.nil, Nat.zero_le _⟩
  · split
    · exact ⟨.nil, Nat.zero_le _⟩
    · exact ⟨(firstOfTheirKind_distinct [] [] _).1.sublist (List.take_sublist _ _),
        List.length_take_le _ _⟩

/-! ## What loading leaves -/

/-- The registry is sound and its generations are all different, up to the last one given. -/
structure Loaded (state : WorkbenchState) : Prop where
  registered : Registered state
  unbound : state.originBindings = ∅
  once : state.workspaceRegistrationGenerations.values.Nodup
  below : ∀ g ∈ state.workspaceRegistrationGenerations.values,
    g ≤ state.nextWorkspaceRegistrationGeneration

theorem loaded_blankState (authorizations : Authorizations) : Loaded (blankState authorizations) where
  registered := ⟨.empty, Table.All.empty, Table.All.empty⟩
  unbound := rfl
  once := List.nodup_nil
  below := nofun

theorem Loaded.loadWorkspace {state : WorkbenchState} (h : Loaded state) {w : WorkspaceRegistration}
    (hKey : w.key ∉ state.workspacesByKey) (hRoot : w.root ∉ state.workspacesByRoot)
    (hRoom : state.nextWorkspaceRegistrationGeneration < U64_MAX) : Loaded (loadWorkspace state w) := by
  have hNext : saturatingAdd state.nextWorkspaceRegistrationGeneration 1 =
      state.nextWorkspaceRegistrationGeneration + 1 := by
    unfold saturatingAdd
    omega
  have hNew : w.key ∉ state.workspaceRegistrationGenerations := by
    intro hOld
    obtain ⟨g, hg⟩ := Option.isSome_iff_exists.mp (AList.lookup_isSome.mpr hOld)
    exact hKey (h.registered.generations w.key g hg)
  have hValues : (Workbench.loadWorkspace state w).workspaceRegistrationGenerations.values =
      (state.nextWorkspaceRegistrationGeneration + 1) :: state.workspaceRegistrationGenerations.values := by
    change Table.values (AList.insert w.key _ _) = _
    rw [Table.values, AList.entries_insert_of_notMem hNew, List.map_cons, hNext]
    rfl
  refine ⟨?_, h.unbound, ?_, ?_⟩
  · refine ⟨h.registered.inverse.insert (fun key hOld => ?_) fun old hOld => ?_,
      h.registered.keyed.insert rfl, fun key g hg => ?_⟩
    · exact absurd (AList.lookup_isSome.mp (hOld ▸ rfl)) hRoot
    · exact absurd (AList.lookup_isSome.mp (hOld ▸ rfl)) hKey
    · change (AList.insert w.key (saturatingAdd state.nextWorkspaceRegistrationGeneration 1)
        state.workspaceRegistrationGenerations).lookup key = some g at hg
      rw [Table.lookup_insert] at hg
      refine (AList.mem_insert _).mpr ?_
      split at hg
      · next hSame => exact .inl hSame
      · exact .inr (h.registered.generations key g hg)
  · rw [hValues]
    refine List.nodup_cons.mpr ⟨fun hOld => ?_, h.once⟩
    have hLe := h.below _ hOld
    omega
  · rw [hValues]
    change ∀ g ∈ _, g ≤ saturatingAdd state.nextWorkspaceRegistrationGeneration 1
    rw [hNext]
    intro g hg
    rcases List.mem_cons.mp hg with rfl | hOld
    · exact le_refl _
    · exact Nat.le_succ_of_le (h.below g hOld)

theorem loaded_foldl {ws : List WorkspaceRegistration} {state : WorkbenchState} (h : Loaded state)
    (hDistinct : ws.Pairwise fun w w' => w.key ≠ w'.key ∧ w.root ≠ w'.root)
    (hNew : ∀ w ∈ ws, w.key ∉ state.workspacesByKey ∧ w.root ∉ state.workspacesByRoot)
    (hRoom : state.nextWorkspaceRegistrationGeneration + ws.length ≤ U64_MAX) :
    Loaded (ws.foldl loadWorkspace state) := by
  induction ws generalizing state with
  | nil => exact h
  | cons w ws ih =>
    obtain ⟨hHead, hTail⟩ := List.pairwise_cons.mp hDistinct
    obtain ⟨⟨hKey, hRoot⟩, hRest⟩ := List.forall_mem_cons.mp hNew
    rw [List.length_cons] at hRoom
    refine ih (h.loadWorkspace hKey hRoot (by omega)) hTail (fun w' hw' => ?_) ?_
    · obtain ⟨hOtherKey, hOtherRoot⟩ := hHead w' hw'
      exact ⟨fun hMem => ((AList.mem_insert _).mp hMem).elim (Ne.symm hOtherKey) (hRest w' hw').1,
        fun hMem => ((AList.mem_insert _).mp hMem).elim (Ne.symm hOtherRoot) (hRest w' hw').2⟩
    · change saturatingAdd state.nextWorkspaceRegistrationGeneration 1 + ws.length ≤ U64_MAX
      unfold saturatingAdd
      omega

theorem loaded_loadedState (env : Env) (store : Authorizations)
    (file : Option WorkbenchWorkspaceStoreV1) (now : Nat) : Loaded (loadedState env store file now) := by
  obtain ⟨hDistinct, hLength⟩ := readWorkspaceStore_distinct env.projectId file
  refine loaded_foldl (loaded_blankState _) hDistinct (fun w _ => ⟨AList.notMem_empty _,
    AList.notMem_empty _⟩) ?_
  change 0 + _ ≤ U64_MAX
  exact (Nat.zero_add _).trans_le (hLength.trans (by decide))

theorem loadedState_pendingCapabilities (env : Env) (store : Authorizations)
    (file : Option WorkbenchWorkspaceStoreV1) (now : Nat) :
    (loadedState env store file now).pendingCapabilities = ∅ := by
  unfold loadedState
  generalize readWorkspaceStore env.projectId file = ws
  have hBlank : (blankState (readAuthorizationStore env store now)).pendingCapabilities = ∅ := rfl
  generalize blankState (readAuthorizationStore env store now) = state at hBlank
  induction ws generalizing state with
  | nil => exact hBlank
  | cons w ws ih => exact ih (loadWorkspace state w) hBlank

end Exosuit.Workbench
