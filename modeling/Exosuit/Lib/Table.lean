import Mathlib.Data.List.AList
import Mathlib.Logic.Function.Basic

/-!
# Keyed tables

A hash map whose iteration order nobody observes is an association list with one
entry a key. Mathlib has the lookups and updates; what it lacks is `retain`. A map that is
only looked up is a function to `Option`.
-/

namespace Exosuit.Lib

universe u v

abbrev Table (κ : Type u) (α : Type v) := AList fun _ : κ => α

namespace Table

variable {κ : Type u} {α : Type v} [DecidableEq κ]

def retain (p : κ → α → Bool) (t : Table κ α) : Table κ α :=
  ⟨t.entries.filter fun e => p e.1 e.2, t.nodupKeys.sublist List.filter_sublist⟩

def values (t : Table κ α) : List α := t.entries.map Sigma.snd

def size (t : Table κ α) : Nat := t.entries.length

/-- Replaces the value of a key that is there. -/
def modify (k : κ) (f : α → α) (t : Table κ α) : Table κ α :=
  match t.lookup k with
  | some a => AList.insert k (f a) t
  | none => t

/-- Sets the value of a key; a key that is there keeps its place. -/
def put (k : κ) (a : α) (t : Table κ α) : Table κ α :=
  if k ∈ t then AList.replace k a t else AList.insert k a t

/-- The entries of the list win over the table's own. -/
def extend (t : Table κ α) (l : List (κ × α)) : Table κ α :=
  l.foldl (fun t e => AList.insert e.1 e.2 t) t

/-- The table of the values, each under its own key; of two with one key the last is kept. -/
def keyed (f : α → κ) (l : List α) : Table κ α := extend ∅ (l.map fun a => (f a, a))

def count (p : κ → α → Bool) (t : Table κ α) : Nat := t.entries.countP fun e => p e.1 e.2

theorem lookup_eq_some {t : Table κ α} {k : κ} {a : α} :
    t.lookup k = some a ↔ (⟨k, a⟩ : Sigma fun _ : κ => α) ∈ t.entries := by
  rw [← AList.mem_lookup_iff, Option.mem_def]

theorem lookup_retain_eq_some {t : Table κ α} {p : κ → α → Bool} {k : κ} {a : α} :
    (t.retain p).lookup k = some a ↔ t.lookup k = some a ∧ p k a = true := by
  rw [lookup_eq_some, lookup_eq_some]
  exact List.mem_filter

theorem lookup_retain (t : Table κ α) (p : κ → α → Bool) (k : κ) :
    (t.retain p).lookup k = (t.lookup k).filter (p k) := by
  ext a
  rw [lookup_retain_eq_some, Option.filter_eq_some_iff]

theorem mem_retain {t : Table κ α} {p : κ → α → Bool} {k : κ} (h : k ∈ t.retain p) : k ∈ t := by
  rw [← AList.lookup_isSome, lookup_retain] at h
  rw [← AList.lookup_isSome]
  cases hk : t.lookup k with
  | none => simp [hk] at h
  | some a => rfl

theorem mem_retain_key {t : Table κ α} {keep : κ → Bool} {k : κ} :
    k ∈ t.retain (fun k _ => keep k) ↔ k ∈ t ∧ keep k = true := by
  rw [← AList.lookup_isSome, ← AList.lookup_isSome, lookup_retain]
  cases t.lookup k <;> simp

theorem lookup_insert (t : Table κ α) (k k' : κ) (a : α) :
    (AList.insert k a t).lookup k' = if k' = k then some a else t.lookup k' := by
  split
  · next h => rw [h, AList.lookup_insert]
  · next h => exact AList.lookup_insert_ne h

theorem lookup_erase (t : Table κ α) (k k' : κ) :
    (AList.erase k t).lookup k' = if k' = k then none else t.lookup k' := by
  split
  · next h => rw [h, AList.lookup_erase]
  · next h => exact AList.lookup_erase_ne h

theorem lookup_modify (t : Table κ α) (k k' : κ) (f : α → α) :
    (t.modify k f).lookup k' = if k' = k then (t.lookup k).map f else t.lookup k' := by
  have hCases : t.modify k f = t ∧ t.lookup k = none ∨
      ∃ a, t.modify k f = AList.insert k (f a) t ∧ t.lookup k = some a := by
    unfold modify
    cases hOld : t.lookup k with
    | none => exact .inl ⟨rfl, rfl⟩
    | some a => exact .inr ⟨a, rfl, rfl⟩
  obtain ⟨hSame, hOld⟩ | ⟨a, hInsert, hOld⟩ := hCases
  · rw [hSame, hOld]
    split
    · next h => rw [h, hOld, Option.map_none]
    · rfl
  · rw [hInsert, lookup_insert, hOld, Option.map_some]

theorem lookup_replace {t : Table κ α} {k : κ} (h : k ∈ t) (a : α) (k' : κ) :
    (AList.replace k a t).lookup k' = if k' = k then some a else t.lookup k' := by
  obtain ⟨entries, hNodup⟩ := t
  change List.dlookup k' (List.kreplace k a entries) =
    if k' = k then some a else List.dlookup k' entries
  replace h : k ∈ entries.keys := h
  clear hNodup
  induction entries with
  | nil => cases h
  | cons e entries ih =>
    obtain ⟨key, b⟩ := e
    by_cases hKey : k = key
    · subst hKey
      have hReplace : List.kreplace k a (⟨k, b⟩ :: entries) = ⟨k, a⟩ :: entries :=
        List.lookmap_cons_some _ entries (if_pos rfl)
      rw [hReplace]
      split
      · next hSame => rw [hSame, List.dlookup_cons_eq]
      · next hNe => rw [List.dlookup_cons_ne _ _ hNe, List.dlookup_cons_ne _ _ hNe]
    · have hReplace : List.kreplace k a (⟨key, b⟩ :: entries) =
          ⟨key, b⟩ :: List.kreplace k a entries :=
        List.lookmap_cons_none _ entries (if_neg hKey)
      rw [hReplace]
      have hRest := ih ((List.mem_cons.mp h).resolve_left hKey)
      by_cases hHead : k' = key
      · subst hHead
        rw [List.dlookup_cons_eq, List.dlookup_cons_eq, if_neg (Ne.symm hKey)]
      · rw [List.dlookup_cons_ne _ _ hHead, List.dlookup_cons_ne _ _ hHead, hRest]

@[simp] theorem lookup_put (t : Table κ α) (k k' : κ) (a : α) :
    (t.put k a).lookup k' = if k' = k then some a else t.lookup k' := by
  unfold put
  split
  · next h => exact lookup_replace h a k'
  · exact lookup_insert t k k' a

theorem keys_put (t : Table κ α) (k : κ) (a : α) :
    (t.put k a).keys = if k ∈ t then t.keys else k :: t.keys := by
  unfold put
  split
  · exact AList.keys_replace k a t
  · next h => rw [AList.keys_insert, List.erase_of_not_mem h]

theorem mem_of_mem_modify {t : Table κ α} {k k' : κ} {f : α → α} (h : k' ∈ t.modify k f) :
    k' ∈ t := by
  rw [← AList.lookup_isSome, lookup_modify] at h
  rw [← AList.lookup_isSome]
  split at h
  · next hKey => rwa [Option.isSome_map, ← hKey] at h
  · exact h

/-! ## Counting -/

section Count

variable {p : κ → α → Bool} {t : Table κ α} {k : κ} {a : α}

omit [DecidableEq κ] in
theorem count_retain_le (q : κ → α → Bool) : count p (t.retain q) ≤ count p t :=
  List.Sublist.countP_le List.filter_sublist

theorem count_erase (h : t.lookup k = some a) :
    count p (AList.erase k t) + (if p k a then 1 else 0) = count p t := by
  have hKey : k ∈ t.entries.keys := AList.mem_keys.mp (AList.lookup_isSome.mp (h ▸ rfl))
  obtain ⟨b, l₁, l₂, hNotMem, hEntries, hErase⟩ := List.exists_of_kerase hKey
  have hValue : b = a := by
    have hMem : (⟨k, b⟩ : Sigma fun _ : κ => α) ∈ t.entries := by
      rw [hEntries]
      exact List.mem_append_right _ List.mem_cons_self
    exact Option.some.inj ((lookup_eq_some.mpr hMem).symm.trans h)
  subst hValue
  have hCount : count p (AList.erase k t) = (l₁ ++ l₂).countP fun e => p e.1 e.2 :=
    congrArg (List.countP fun e : Sigma fun _ : κ => α => p e.1 e.2) hErase
  rw [hCount, count, hEntries, List.countP_append, List.countP_append, List.countP_cons]
  dsimp only
  omega

theorem count_erase_le : count p (AList.erase k t) ≤ count p t := by
  cases h : t.lookup k with
  | none =>
    have hSame : AList.erase k t = t := by
      apply AList.ext
      exact List.kerase_of_notMem_keys (AList.lookup_eq_none.mp h)
    rw [hSame]
  | some a =>
    have hCount := count_erase (p := p) h
    omega

theorem count_insert : count p (AList.insert k a t) =
    count p (AList.erase k t) + (if p k a then 1 else 0) := by
  unfold count
  rw [AList.entries_insert, List.countP_cons]
  rfl

theorem count_insert_le : count p (AList.insert k a t) ≤ count p t + (if p k a then 1 else 0) := by
  rw [count_insert]
  exact Nat.add_le_add_right count_erase_le _

theorem count_modify {f : α → α} (h : ∀ a, t.lookup k = some a → p k (f a) = p k a) :
    count p (t.modify k f) = count p t := by
  unfold modify
  cases hOld : t.lookup k with
  | none => rfl
  | some a =>
    dsimp only
    rw [count_insert, h a hOld]
    exact count_erase hOld

theorem count_insert_of_lookup {b : α} (h : t.lookup k = some a) (hp : p k b = true → p k a = true) :
    count p (AList.insert k b t) ≤ count p t := by
  have hErase := count_erase (p := p) h
  rw [count_insert]
  split
  · next hb =>
    rw [if_pos (hp hb)] at hErase
    omega
  · omega

theorem count_le_count {β : Type*} {t' : Table κ β} {q : κ → β → Bool}
    (h : ∀ k a, t.lookup k = some a → p k a = true → ∃ b, t'.lookup k = some b ∧ q k b = true) :
    count p t ≤ count q t' := by
  have hSubset : (t.entries.filter fun e => p e.1 e.2).map Sigma.fst ⊆
      (t'.entries.filter fun e => q e.1 e.2).map Sigma.fst := by
    intro k hk
    obtain ⟨e, hMem, rfl⟩ := List.mem_map.mp hk
    obtain ⟨hEntry, hp⟩ := List.mem_filter.mp hMem
    obtain ⟨b, hb, hq⟩ := h e.1 e.2 (lookup_eq_some.mpr hEntry) hp
    exact List.mem_map.mpr ⟨⟨e.1, b⟩, List.mem_filter.mpr ⟨lookup_eq_some.mp hb, hq⟩, rfl⟩
  have hNodup : ((t.entries.filter fun e => p e.1 e.2).map Sigma.fst).Nodup :=
    t.nodupKeys.sublist List.filter_sublist
  have hLength := (List.subperm_of_subset hNodup hSubset).length_le
  rw [List.length_map, List.length_map] at hLength
  rwa [count, count, List.countP_eq_length_filter, List.countP_eq_length_filter]

theorem count_ne (h : t.lookup k = some a) (hp : p k a = true) :
    count (fun k' b => p k' b && k' != k) t + 1 ≤ count p t := by
  have hErase := count_erase (p := p) h
  rw [if_pos hp] at hErase
  have hOthers : count (fun k' b => p k' b && k' != k) t ≤ count p (AList.erase k t) := by
    refine count_le_count fun k' b hb hBoth => ?_
    obtain ⟨hCounts, hNe⟩ := Bool.and_eq_true_iff.mp hBoth
    exact ⟨b, by rw [lookup_erase, if_neg (bne_iff_ne.mp hNe), hb], hCounts⟩
  omega

theorem count_notMem {keys : List κ} (hNodup : keys.Nodup)
    (h : ∀ k ∈ keys, ∃ a, t.lookup k = some a ∧ p k a = true) :
    count (fun k a => p k a && decide (k ∉ keys)) t + keys.length ≤ count p t := by
  induction keys with
  | nil => simp
  | cons key keys ih =>
    obtain ⟨hNew, hRest⟩ := List.nodup_cons.mp hNodup
    obtain ⟨⟨a, ha, hp⟩, hOthers⟩ := List.forall_mem_cons.mp h
    have hOne := count_ne (p := fun k a => p k a && decide (k ∉ keys)) ha (by simp [hp, hNew])
    have hSplit : (fun k a => p k a && decide (k ∉ key :: keys)) =
        fun k a => (p k a && decide (k ∉ keys)) && k != key := by
      funext k a
      grind
    rw [hSplit, List.length_cons]
    have hMany := ih hRest hOthers
    omega

omit [DecidableEq κ] in
theorem length_filter_values (q : α → Bool) :
    (t.values.filter q).length = count (fun _ a => q a) t := by
  unfold values count
  rw [List.filter_map, List.length_map, List.countP_eq_length_filter]
  rfl

end Count

/-! ## Conditions on every entry -/

def All (P : κ → α → Prop) (t : Table κ α) : Prop := ∀ k a, t.lookup k = some a → P k a

namespace All

variable {P : κ → α → Prop} {t : Table κ α} {k : κ} {a : α}

theorem empty : All P (∅ : Table κ α) := fun _ _ h => by cases h

theorem retain (h : All P t) (p : κ → α → Bool) : All P (t.retain p) :=
  fun k a hk => h k a (lookup_retain_eq_some.mp hk).1

theorem insert (h : All P t) (ha : P k a) : All P (AList.insert k a t) := by
  intro k' b hb
  rw [lookup_insert] at hb
  split at hb
  · next hKey =>
    cases hb
    exact hKey ▸ ha
  · exact h k' b hb

theorem erase (h : All P t) (k : κ) : All P (AList.erase k t) := by
  intro k' b hb
  rw [lookup_erase] at hb
  split at hb
  · cases hb
  · exact h k' b hb

theorem modify {f : α → α} (h : All P t) (hf : ∀ a, P k a → P k (f a)) : All P (t.modify k f) := by
  intro k' b hb
  rw [lookup_modify] at hb
  split at hb
  · next hKey =>
    obtain ⟨a, ha, rfl⟩ := Option.map_eq_some_iff.mp hb
    exact hKey ▸ hf a (h k a ha)
  · exact h k' b hb

theorem foldl_modify {f : α → α} (keys : List κ) (h : All P t) (hf : ∀ k a, P k a → P k (f a)) :
    All P (keys.foldl (fun t k => t.modify k f) t) := by
  induction keys generalizing t with
  | nil => exact h
  | cons key keys ih => exact ih (h.modify (hf key))

theorem extend {l : List (κ × α)} (h : All P t) (hl : ∀ e ∈ l, P e.1 e.2) : All P (t.extend l) := by
  induction l generalizing t with
  | nil => exact h
  | cons e l ih =>
    obtain ⟨hHead, hRest⟩ := List.forall_mem_cons.mp hl
    exact ih (h.insert hHead) hRest

theorem keyed {f : α → κ} {l : List α} (h : ∀ a ∈ l, P (f a) a) : All P (Table.keyed f l) := by
  refine All.empty.extend fun e he => ?_
  obtain ⟨a, ha, rfl⟩ := List.mem_map.mp he
  exact h a ha

end All

theorem mem_values {t : Table κ α} {a : α} : a ∈ t.values ↔ ∃ k, t.lookup k = some a := by
  constructor
  · intro ha
    obtain ⟨e, hMem, rfl⟩ := List.mem_map.mp ha
    exact ⟨e.1, lookup_eq_some.mpr hMem⟩
  · rintro ⟨k, hk⟩
    exact List.mem_map.mpr ⟨⟨k, a⟩, lookup_eq_some.mp hk, rfl⟩

theorem lookup_foldl_modify {f : α → α} (keys : List κ) (hf : ∀ a, f (f a) = f a) (t : Table κ α)
    (k : κ) : (keys.foldl (fun t k => t.modify k f) t).lookup k =
      if k ∈ keys then (t.lookup k).map f else t.lookup k := by
  induction keys generalizing t with
  | nil => rfl
  | cons key keys ih =>
    rw [List.foldl_cons, ih, lookup_modify]
    by_cases hKey : k = key
    · subst hKey
      rw [if_pos rfl, if_pos List.mem_cons_self, Option.map_map]
      have hTwice : f ∘ f = f := funext hf
      rw [hTwice, ite_self]
    · rw [if_neg hKey]
      exact if_congr (by rw [List.mem_cons, or_iff_right hKey]) rfl rfl

/-! ## Extending -/

section Extend

theorem mem_extend {t : Table κ α} {l : List (κ × α)} {k : κ} :
    k ∈ t.extend l ↔ k ∈ t ∨ k ∈ l.map Prod.fst := by
  induction l generalizing t with
  | nil => simp [extend]
  | cons e l ih =>
    have hStep : t.extend (e :: l) = extend (AList.insert e.1 e.2 t) l := rfl
    rw [hStep, ih, AList.mem_insert, List.map_cons, List.mem_cons, or_comm (a := k = e.1), or_assoc]

theorem lookup_extend_of_notMem {t : Table κ α} {l : List (κ × α)} {k : κ}
    (h : k ∉ l.map Prod.fst) : (t.extend l).lookup k = t.lookup k := by
  induction l generalizing t with
  | nil => rfl
  | cons e l ih =>
    rw [List.map_cons, List.mem_cons, not_or] at h
    have hStep : t.extend (e :: l) = extend (AList.insert e.1 e.2 t) l := rfl
    rw [hStep, ih h.2, lookup_insert, if_neg h.1]

theorem lookup_extend {t : Table κ α} {l : List (κ × α)} (hNodup : (l.map Prod.fst).Nodup)
    {k : κ} {a : α} (h : (k, a) ∈ l) : (t.extend l).lookup k = some a := by
  induction l generalizing t with
  | nil => cases h
  | cons e l ih =>
    have hStep : t.extend (e :: l) = extend (AList.insert e.1 e.2 t) l := rfl
    obtain ⟨hNotMem, hRest⟩ := List.nodup_cons.mp hNodup
    rw [hStep]
    rcases List.mem_cons.mp h with rfl | hMem
    · rw [lookup_extend_of_notMem hNotMem, lookup_insert, if_pos rfl]
    · exact ih hRest hMem

omit [DecidableEq κ] in
theorem count_true (t : Table κ α) : count (fun _ _ => true) t = t.size := by
  unfold count size
  rw [List.countP_true]

theorem size_insert (t : Table κ α) (k : κ) (a : α) :
    size (AList.insert k a t) = if k ∈ t then t.size else t.size + 1 := by
  rw [← count_true, ← count_true, count_insert, if_pos rfl]
  split
  · next h =>
    obtain ⟨b, hb⟩ := Option.isSome_iff_exists.mp (AList.lookup_isSome.mpr h)
    have hErase := count_erase (p := fun _ _ => true) hb
    rwa [if_pos rfl] at hErase
  · next h =>
    have hSame : AList.erase k t = t := by
      apply AList.ext
      exact List.kerase_of_notMem_keys h
    rw [hSame]

theorem size_insert_le (t : Table κ α) (k : κ) (a : α) : size (AList.insert k a t) ≤ t.size + 1 := by
  rw [size_insert]
  split <;> omega

theorem size_insert_of_mem {t : Table κ α} {k : κ} (h : k ∈ t) (a : α) :
    size (AList.insert k a t) = t.size := by
  rw [size_insert, if_pos h]

/-- Every pair is an entry of its own exactly when no key comes twice. -/
theorem size_extend_le (t : Table κ α) (l : List (κ × α)) : (t.extend l).size ≤ t.size + l.length := by
  induction l generalizing t with
  | nil => exact le_refl _
  | cons e l ih =>
    have hStep : t.extend (e :: l) = extend (AList.insert e.1 e.2 t) l := rfl
    have hRest := ih (AList.insert e.1 e.2 t)
    rw [size_insert] at hRest
    rw [hStep, List.length_cons]
    split at hRest <;> omega

theorem count_extend_le {p : κ → α → Bool} (t : Table κ α) (l : List (κ × α)) :
    count p (t.extend l) ≤ count p t + l.countP fun e => p e.1 e.2 := by
  induction l generalizing t with
  | nil => exact le_refl _
  | cons e l ih =>
    have hStep : t.extend (e :: l) = extend (AList.insert e.1 e.2 t) l := rfl
    have hRest := ih (AList.insert e.1 e.2 t)
    have hInsert := count_insert_le (p := p) (t := t) (k := e.1) (a := e.2)
    rw [hStep, List.countP_cons]
    omega

theorem count_keyed_le {p : κ → α → Bool} (f : α → κ) (l : List α) :
    count p (keyed f l) ≤ l.countP fun a => p (f a) a := by
  have hCount := count_extend_le (p := p) (∅ : Table κ α) (l.map fun a => (f a, a))
  rw [List.countP_map] at hCount
  have hEmpty : count p (∅ : Table κ α) = 0 := rfl
  rw [hEmpty, Nat.zero_add] at hCount
  exact hCount

theorem size_le_size {β : Type*} {t : Table κ α} {t' : Table κ β} (h : ∀ k, k ∈ t → k ∈ t') :
    t.size ≤ t'.size := by
  rw [← count_true, ← count_true]
  refine count_le_count fun k a ha _ => ?_
  obtain ⟨b, hb⟩ := Option.isSome_iff_exists.mp (AList.lookup_isSome.mpr
    (h k (AList.lookup_isSome.mp (ha ▸ rfl))))
  exact ⟨b, hb, rfl⟩

theorem size_keyed_le (f : α → κ) (l : List α) : size (keyed f l) ≤ l.length := by
  have hSize := size_extend_le (∅ : Table κ α) (l.map fun a => (f a, a))
  have hEmpty : size (∅ : Table κ α) = 0 := rfl
  rwa [hEmpty, Nat.zero_add, List.length_map] at hSize

omit [DecidableEq κ] in
theorem length_values (t : Table κ α) : t.values.length = t.size := List.length_map _

theorem size_extend_eq_iff {t : Table κ α} {l : List (κ × α)} :
    (t.extend l).size = t.size + l.length ↔
      (l.map Prod.fst).Nodup ∧ ∀ k ∈ l.map Prod.fst, k ∉ t := by
  induction l generalizing t with
  | nil => simp [extend]
  | cons e l ih =>
    have hStep : t.extend (e :: l) = extend (AList.insert e.1 e.2 t) l := rfl
    have hRest := @ih (AList.insert e.1 e.2 t)
    have hLe := size_extend_le (AList.insert e.1 e.2 t) l
    rw [size_insert] at hRest hLe
    rw [hStep, List.length_cons, List.map_cons, List.nodup_cons, List.forall_mem_cons]
    split at hRest
    · next hMem =>
      rw [if_pos hMem] at hLe
      constructor
      · intro hEq
        omega
      · rintro ⟨-, hNotMem, -⟩
        exact absurd hMem hNotMem
    · next hNotMem =>
      rw [show t.size + (l.length + 1) = t.size + 1 + l.length by omega, hRest]
      constructor
      · rintro ⟨hNodup, hFresh⟩
        refine ⟨⟨fun hMem => hFresh e.1 hMem ((AList.mem_insert _).mpr (.inl rfl)), hNodup⟩, hNotMem,
          fun k hk hOld => hFresh k hk ((AList.mem_insert _).mpr (.inr hOld))⟩
      · rintro ⟨⟨hNew, hNodup⟩, -, hFresh⟩
        refine ⟨hNodup, fun k hk hIn => ?_⟩
        rcases (AList.mem_insert _).mp hIn with rfl | hOld
        · exact hNew hk
        · exact hFresh k hk hOld

end Extend

/-! ## Values under their own keys -/

omit [DecidableEq κ] in
theorem map_values {t : Table κ α} {f : α → κ} (h : ∀ e ∈ t.entries, f e.2 = e.1) :
    t.values.map f = t.keys := by
  unfold values AList.keys List.keys
  rw [List.map_map]
  exact List.map_congr_left h

end Table

theorem update_eq_some {α : Type u} {β : Type v} [DecidableEq α] {m : α → Option β} {a x : α}
    {b : Option β} {y : β} (h : Function.update m a b x = some y) :
    (x = a ∧ b = some y) ∨ (x ≠ a ∧ m x = some y) := by
  rcases eq_or_ne x a with rfl | hOther
  · exact .inl ⟨rfl, by rwa [Function.update_self] at h⟩
  · exact .inr ⟨hOther, by rwa [Function.update_of_ne hOther] at h⟩

end Exosuit.Lib
