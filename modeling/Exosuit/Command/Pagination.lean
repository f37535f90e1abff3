import Exosuit.Lib.Text

/-!
# Pages of a list

`paginate_items`: a page begins at the cursor and ends at the limit or with the list, and its
cursor for the next page is where it ends.
-/

namespace Exosuit.Command

open Lib

variable {α β : Type*}

/-- A slice has no more items than a signed machine word can count. -/
structure Slice (α : Type*) where
  items : List α
  fits : items.length < 2 ^ 63

def DEFAULT_LIMIT : Nat := 20

/-- `usize::try_from` refuses a negative limit, which leaves the default. -/
def parseLimit (limit : Option Int64) : Option Nat :=
  limit.bind fun value => if 0 ≤ value.toInt then some value.toInt.toNat else none

structure Page (β : Type*) where
  items : List β
  nextCursor : Option String
  hasMore : Bool
deriving DecidableEq

/-- `none` where `start + limit` overflows. -/
def paginateItems (items : Slice α) (cursor : Option String) (limit : Option Nat) (mapFn : α → β) :
    Option (Page β) :=
  let start := (cursor.bind Text.parseUsize).getD 0
  let limit := limit.getD DEFAULT_LIMIT
  if start + limit < 2 ^ 64 then
    let end_ := min (start + limit) items.items.length
    let hasMore := decide (end_ < items.items.length)
    some ⟨((items.items.take end_).drop start).map mapFn, if hasMore then some end_.repr else none, hasMore⟩
  else none

/-- The pages that a client gets that follows the cursors from the first one on. -/
inductive Visits (items : Slice α) (limit : Option Nat) (mapFn : α → β) :
    Option String → List (Page β) → Prop
  | last {cursor : Option String} {page : Page β} (hPage : paginateItems items cursor limit mapFn = some page)
    (hLast : page.nextCursor = none) : Visits items limit mapFn cursor [page]
  | next {cursor : Option String} {page : Page β} {next : String} {pages : List (Page β)}
    (hPage : paginateItems items cursor limit mapFn = some page) (hNext : page.nextCursor = some next)
    (hRest : Visits items limit mapFn (some next) pages) : Visits items limit mapFn cursor (page :: pages)

theorem parseLimit_lt {limit : Option Int64} {n : Nat} (h : parseLimit limit = some n) : n < 2 ^ 63 := by
  obtain ⟨value, -, hValue⟩ := Option.bind_eq_some_iff.mp h
  split at hValue
  · have hBound := value.toInt_lt
    cases hValue
    omega
  · exact nomatch hValue

theorem getD_parseLimit_lt (limit : Option Int64) : (parseLimit limit).getD DEFAULT_LIMIT < 2 ^ 63 := by
  cases hLimit : parseLimit limit with
  | none => decide
  | some n => exact parseLimit_lt hLimit

section

variable {items : Slice α} {limit : Option Nat} {mapFn : α → β} {cursor : Option String} {start : Nat}

theorem paginateItems_isSome : (paginateItems items cursor limit mapFn).isSome ↔
    (cursor.bind Text.parseUsize).getD 0 + limit.getD DEFAULT_LIMIT < 2 ^ 64 := by
  unfold paginateItems
  dsimp only
  split
  · next h => exact iff_of_true rfl h
  · next h => exact iff_of_false nofun h

/-- A page that does not reach the end of the list. -/
theorem paginateItems_more (hStart : (cursor.bind Text.parseUsize).getD 0 = start)
    (hMore : start + limit.getD DEFAULT_LIMIT < items.items.length) :
    paginateItems items cursor limit mapFn =
      some ⟨((items.items.drop start).take (limit.getD DEFAULT_LIMIT)).map mapFn,
        some (start + limit.getD DEFAULT_LIMIT).repr, true⟩ := by
  have hFits := items.fits
  rw [paginateItems, hStart, if_pos (by omega), Nat.min_eq_left hMore.le]
  dsimp only
  rw [decide_eq_true hMore, if_pos rfl, List.drop_take, Nat.add_sub_cancel_left]

theorem paginateItems_last (hStart : (cursor.bind Text.parseUsize).getD 0 = start)
    (hFits : start + limit.getD DEFAULT_LIMIT < 2 ^ 64)
    (hLast : items.items.length ≤ start + limit.getD DEFAULT_LIMIT) :
    paginateItems items cursor limit mapFn = some ⟨(items.items.drop start).map mapFn, none, false⟩ := by
  rw [paginateItems, hStart, if_pos hFits, Nat.min_eq_right hLast]
  dsimp only
  rw [decide_eq_false (Nat.lt_irrefl _), List.take_length]
  rfl

theorem getD_parseUsize_repr {n : Nat} (h : n < 2 ^ 64) :
    ((some n.repr).bind Text.parseUsize).getD 0 = n := by
  rw [Option.bind_some, Text.parseUsize_repr h]
  rfl

/-- From each place in the list, a positive limit leads to the end and skips nothing. -/
theorem exists_visits (hPositive : 0 < limit.getD DEFAULT_LIMIT) (hLimit : limit.getD DEFAULT_LIMIT < 2 ^ 63)
    (hStart : (cursor.bind Text.parseUsize).getD 0 = start) (hInside : start ≤ items.items.length) :
    ∃ pages, Visits items limit mapFn cursor pages ∧
      pages.flatMap Page.items = (items.items.drop start).map mapFn := by
  have hFits := items.fits
  induction hLeft : items.items.length - start using Nat.strong_induction_on generalizing cursor start with
  | _ left ih =>
    by_cases hMore : start + limit.getD DEFAULT_LIMIT < items.items.length
    · have hNext : ((some (start + limit.getD DEFAULT_LIMIT).repr).bind Text.parseUsize).getD 0 =
          start + limit.getD DEFAULT_LIMIT := getD_parseUsize_repr (by omega)
      obtain ⟨pages, hRest, hItems⟩ := ih _ (by omega) hNext hMore.le rfl
      refine ⟨_, .next (paginateItems_more hStart hMore) rfl hRest, ?_⟩
      rw [List.flatMap_cons, hItems, ← List.map_append, ← List.drop_drop, List.take_append_drop]
    · refine ⟨_, .last (paginateItems_last hStart (by omega) (by omega)) rfl, ?_⟩
      rw [List.flatMap_cons, List.flatMap_nil, List.append_nil]

theorem not_visits_of_zero (hStart : (cursor.bind Text.parseUsize).getD 0 = start)
    (hInside : start < items.items.length) (pages : List (Page β)) :
    ¬ Visits items (some 0) mapFn cursor pages := by
  have hFits := items.fits
  have hMore : start + (some 0).getD DEFAULT_LIMIT < items.items.length := hInside
  intro hVisits
  induction hVisits with
  | last hPage hLast =>
    rw [paginateItems_more hStart hMore] at hPage
    cases hPage
    exact nomatch hLast
  | next hPage hNext _ ih =>
    rw [paginateItems_more hStart hMore] at hPage
    cases hPage
    cases hNext
    exact ih (getD_parseUsize_repr (by omega))

end

/-- A client that follows the cursors gets every item once, in order and in finitely many pages,
and the page at a cursor is computed without overflow, unless the limit is zero on a list with
items, or the cursor is too near to the end of the machine words. -/
theorem pages_partition_iff (items : Slice α) (limit : Option Int64) (cursor : Option String) (mapFn : α → β) :
    ((∃ pages, Visits items (parseLimit limit) mapFn none pages ∧
        pages.flatMap Page.items = items.items.map mapFn) ∧
      (paginateItems items cursor (parseLimit limit) mapFn).isSome) ↔
    (items.items = [] ∨ limit ≠ some 0) ∧
      ∀ n, cursor.bind Text.parseUsize = some n → n + (parseLimit limit).getD DEFAULT_LIMIT < 2 ^ 64 := by
  have hLimit := getD_parseLimit_lt limit
  refine and_congr ⟨?_, ?_⟩ ?_
  · rintro ⟨pages, hVisits, -⟩
    by_contra hNot
    obtain ⟨hItems, hZero⟩ := not_or.mp hNot
    obtain rfl := not_not.mp hZero
    exact @not_visits_of_zero _ _ items mapFn none 0 rfl (List.length_pos_iff.mpr hItems) pages hVisits
  · rintro (hEmpty | hZero)
    · refine ⟨_, .last (paginateItems_last rfl ?_ ?_) rfl, ?_⟩
      · change 0 + _ < 2 ^ 64
        omega
      · rw [hEmpty]
        exact Nat.zero_le _
      · rw [hEmpty]
        rfl
    · have hPositive : 0 < (parseLimit limit).getD DEFAULT_LIMIT := by
        cases limit with
        | none => decide
        | some value =>
          have hValue : value.toInt ≠ 0 := fun hInt => hZero (congrArg some (Int64.toInt_inj.mp hInt))
          change 0 < (if 0 ≤ value.toInt then some value.toInt.toNat else none).getD DEFAULT_LIMIT
          split
          · change 0 < value.toInt.toNat
            omega
          · decide
      exact exists_visits hPositive hLimit rfl (Nat.zero_le _)
  · rw [paginateItems_isSome]
    cases hCursor : cursor.bind Text.parseUsize with
    | none =>
      refine iff_of_true ?_ nofun
      change 0 + _ < 2 ^ 64
      omega
    | some n => exact ⟨fun h m hm => Option.some.inj hm ▸ h, fun h => h n rfl⟩

def oneTask : Slice String := ⟨["task"], by decide⟩

/-- The limit zero hands out the same cursor for ever, and the last machine word overflows. -/
theorem pages_stall :
    (¬ ∃ pages, Visits oneTask (parseLimit (some 0)) id none pages) ∧
      paginateItems oneTask (some (2 ^ 64 - 1).repr) (parseLimit none) id = none := by
  constructor
  · rintro ⟨pages, hVisits⟩
    exact @not_visits_of_zero _ _ oneTask id none 0 rfl (by decide) pages hVisits
  · have hSum : ¬ (paginateItems oneTask (some (2 ^ 64 - 1).repr) (parseLimit none) id).isSome := by
      rw [paginateItems_isSome, getD_parseUsize_repr (by decide)]
      decide
    exact Option.not_isSome_iff_eq_none.mp hSum

end Exosuit.Command
