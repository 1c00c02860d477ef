import Mathlib.Data.List.DropRight
import RsQuery.Freshness

/-!
# Trimming pages

A page that is added is pushed, or inserted at the front, and then pages and parameters are
removed in step, one by one from the other end, as long as there are more pages than allowed.
What the loops leave is the end, or the beginning, of the zipped pages and parameters:
`QueryClient.addPage_trims`.
-/

namespace RsQuery

variable {V T P : Type}

/-- `Vec::remove(0)`, which panics when there is nothing. -/
def removeFirst {α : Type} : List α → Option (List α)
  | [] => none
  | _ :: xs => some xs

namespace InfiniteData

/-- Add a page to the data. -/
def pushPage (d : InfiniteData T P) (page : T) (param : P) : InfiniteData T P :=
  ⟨d.pages ++ [page], d.pageParams ++ [param]⟩

/-- Removes the first page and the first parameter while there are more than `max` pages. -/
def trimFront (max : Nat) : List T → List P → Option (InfiniteData T P)
  | [], params => some ⟨[], params⟩
  | page :: pages, params =>
    if (page :: pages).length > max then (removeFirst params).bind (trimFront max pages)
    else some ⟨page :: pages, params⟩

/-- Pops the last page and the last parameter while there are more than `max` pages. -/
def trimBack (max : Nat) (pages : List T) (params : List P) : InfiniteData T P :=
  if pages.length > max then trimBack max pages.dropLast params.dropLast else ⟨pages, params⟩
termination_by pages.length
decreasing_by
  rw [List.length_dropLast]
  omega

/-- Pushes the page, and trims the front. -/
def pushTrimmed (d : InfiniteData T P) (page : T) (param : P) (maxPages : Option Nat) :
    Option (InfiniteData T P) :=
  let newData := d.pushPage page param
  match maxPages with
  | some max => trimFront max newData.pages newData.pageParams
  | none => some newData

/-- Inserts the page at the front, and trims the back. -/
def insertTrimmed (d : InfiniteData T P) (page : T) (param : P) (maxPages : Option Nat) :
    InfiniteData T P :=
  let newData : InfiniteData T P := ⟨page :: d.pages, param :: d.pageParams⟩
  match maxPages with
  | some max => trimBack max newData.pages newData.pageParams
  | none => newData

/-- The loop removes at once what there is too much of, or panics for want of a parameter. -/
theorem trimFront_eq (max : Nat) (pages : List T) (params : List P) :
  trimFront max pages params
    = if pages.length - max ≤ params.length then
        some ⟨pages.drop (pages.length - max), params.drop (pages.length - max)⟩
      else none
  := by
  induction pages generalizing params with
  | nil => simp [trimFront]
  | cons page pages ih =>
    rw [trimFront]
    split
    · next h =>
      have hexcess : (page :: pages).length - max = (pages.length - max) + 1 := by
        rw [List.length_cons] at h ⊢
        omega
      rw [hexcess]
      cases params with
      | nil => simp [removeFirst]
      | cons param params =>
        simp only [removeFirst, Option.bind_some, ih, List.length_cons, List.drop_succ_cons,
          Nat.add_le_add_iff_right]
    · next h =>
      rw [Nat.sub_eq_zero_of_le (Nat.not_lt.mp h), if_pos (Nat.zero_le _), List.drop_zero,
        List.drop_zero]

theorem trimBack_eq (max : Nat) (pages : List T) (params : List P) :
  trimBack max pages params
    = ⟨pages.take (pages.length - (pages.length - max)),
        params.take (params.length - (pages.length - max))⟩
  := by
  fun_induction trimBack max pages params with
  | case1 pages params h ih =>
    have hpages : min (pages.length - 1 - (pages.length - 1 - max)) (pages.length - 1)
        = pages.length - (pages.length - max) := by omega
    have hparams : min (params.length - 1 - (pages.length - 1 - max)) (params.length - 1)
        = params.length - (pages.length - max) := by omega
    rw [ih, List.length_dropLast, List.length_dropLast,
      List.dropLast_eq_take, List.dropLast_eq_take, List.take_take, List.take_take, hpages, hparams]
  | case2 pages params h =>
    simp [Nat.sub_eq_zero_of_le (Nat.not_lt.mp h)]

/-- Appending is pushing and then trimming the front. -/
theorem append_eq (d : InfiniteData T P) (page : T) (param : P) (maxPages : Option Nat) :
  d.append page param maxPages = d.pushTrimmed page param maxPages
  := by
  cases maxPages with
  | none => simp [append, pushTrimmed, pushPage]
  | some max =>
    simp only [pushTrimmed]
    rw [trimFront_eq]
    rfl

/-- Prepending is inserting at the front and then trimming the back. -/
theorem prepend_eq (d : InfiniteData T P) (page : T) (param : P) (maxPages : Option Nat) :
  d.prepend page param maxPages = d.insertTrimmed page param maxPages
  := by
  cases maxPages with
  | none => simp [prepend, insertTrimmed]
  | some max =>
    simp only [insertTrimmed]
    rw [trimBack_eq]
    rfl

/-- The first pages with their parameters, or all of them. -/
def firstPages (maxPages : Option Nat) (l : List (T × P)) : List (T × P) :=
  maxPages.elim l l.take

/-- The last pages with their parameters, or all of them. -/
def lastPages (maxPages : Option Nat) (l : List (T × P)) : List (T × P) :=
  maxPages.elim l l.rtake

/-- The pages with their parameters. -/
def zipped (d : InfiniteData T P) : List (T × P) :=
  d.pages.zip d.pageParams

/-- There are as many parameters as pages. -/
def Paired (d : InfiniteData T P) : Prop :=
  d.pages.length = d.pageParams.length

theorem zipped_drop (n : Nat) (pages : List T) (params : List P) :
  zipped ⟨pages.drop n, params.drop n⟩ = (pages.zip params).drop n
  := List.drop_zipWith.symm

theorem zipped_take (n : Nat) (pages : List T) (params : List P) :
  zipped ⟨pages.take n, params.take n⟩ = (pages.zip params).take n
  := List.take_zipWith.symm

/-- With as many parameters as pages, the loop ends, and leaves the last of them. -/
theorem Paired.pushTrimmed
    {d : InfiniteData T P} (h : d.Paired) (page : T) (param : P) (maxPages : Option Nat) :
  ∃ d', d.pushTrimmed page param maxPages = some d' ∧ d'.Paired ∧
    d'.zipped = lastPages maxPages (d.zipped ++ [(page, param)])
  := by
  have hzip : (d.pages ++ [page]).zip (d.pageParams ++ [param]) = d.zipped ++ [(page, param)] :=
    List.zip_append h
  have hlength : (d.pages ++ [page]).length = (d.pageParams ++ [param]).length := by
    rw [List.length_append, List.length_append, h]
    rfl
  cases maxPages with
  | none => exact ⟨_, rfl, hlength, hzip⟩
  | some max =>
    have hzipped : (d.zipped ++ [(page, param)]).length = (d.pages ++ [page]).length := by
      rw [← hzip, List.length_zip, ← hlength, Nat.min_self]
    simp only [InfiniteData.pushTrimmed, pushPage]
    rw [trimFront_eq, ← hlength, if_pos (Nat.sub_le _ _)]
    refine ⟨_, rfl, ?_, ?_⟩
    · rw [Paired, List.length_drop, List.length_drop, hlength]
    · rw [zipped_drop, hzip, lastPages, Option.elim_some, List.rtake, hzipped]

/-- With as many parameters as pages, the loop leaves the first of them. -/
theorem Paired.insertTrimmed
    {d : InfiniteData T P} (h : d.Paired) (page : T) (param : P) (maxPages : Option Nat) :
  (d.insertTrimmed page param maxPages).Paired ∧
    (d.insertTrimmed page param maxPages).zipped =
      firstPages maxPages ((page, param) :: d.zipped)
  := by
  have hlength : (page :: d.pages).length = (param :: d.pageParams).length :=
    congrArg Nat.succ h
  cases maxPages with
  | none => exact ⟨hlength, rfl⟩
  | some max =>
    have hzipped : ((page, param) :: d.zipped).length = (page :: d.pages).length := by
      rw [List.length_cons, zipped, List.length_zip, ← h, Nat.min_self, List.length_cons]
    simp only [InfiniteData.insertTrimmed]
    rw [trimBack_eq, ← hlength]
    constructor
    · rw [Paired, List.length_take, List.length_take, hlength]
    · rw [zipped_take, firstPages, Option.elim_some, List.zip_cons_cons, Nat.sub_sub_eq_min,
        ← hzipped, Nat.min_comm]
      apply List.take_eq_take_min.symm

end InfiniteData

namespace QueryClient

variable [StringAny V] [InfiniteAny V T P]

/-- The pages that are stored under a key are these. -/
def Stores (c : QueryClient V) (key : QueryKey) (d : InfiniteData T P) : Prop :=
  ∃ e, c.cache.lookup key.cacheKey = some e ∧ e.data = ofInfinite d

theorem stores_replacePages
    {c : QueryClient V} {key : QueryKey} {data : InfiniteData T P} (h : c.pagesOf key = some data)
    (now : Instant) (d : InfiniteData T P) :
  (c.replacePages now key d).Stores key d
  := by
  obtain ⟨e, he, -⟩ := Option.bind_eq_some_iff.mp h
  refine ⟨{ e with data := ofInfinite d, fetchedAt := now, lastAccessed := now }, ?_, rfl⟩
  rw [replacePages_lookup, if_pos rfl, he, Option.map_some]

/-- With as many parameters as pages, neither operation panics; they return what their loops
leave, the last and the first pages with their parameters, still as many, and store it. -/
theorem addPage_trims
    {c : QueryClient V} {key : QueryKey} {data : InfiniteData T P} (h : c.pagesOf key = some data)
    (hpaired : data.Paired) (now : Instant) (page : T) (param : P) (maxPages : Option Nat) :
  (∃ c' d, c.appendInfinitePage now key page param maxPages = some (c', some d) ∧
    data.pushTrimmed page param maxPages = some d ∧
    d.zipped = InfiniteData.lastPages maxPages (data.zipped ++ [(page, param)]) ∧
    d.Paired ∧ c'.Stores key d) ∧
  ∃ c' d, c.prependInfinitePage now key page param maxPages = (c', some d) ∧
    data.insertTrimmed page param maxPages = d ∧
    d.zipped = InfiniteData.firstPages maxPages ((page, param) :: data.zipped) ∧
    d.Paired ∧ c'.Stores key d
  := by
  constructor
  · obtain ⟨d, hd, hpaired', hzipped⟩ := hpaired.pushTrimmed page param maxPages
    refine ⟨c.replacePages now key d, d, ?_, hd, hzipped, hpaired', stores_replacePages h now d⟩
    simp only [appendInfinitePage, h, InfiniteData.append_eq, hd]
  · obtain ⟨hpaired', hzipped⟩ := hpaired.insertTrimmed page param maxPages
    refine ⟨c.replacePages now key _, _, ?_, rfl, hzipped, hpaired', stores_replacePages h now _⟩
    simp only [prependInfinitePage, h, InfiniteData.prepend_eq]

/-- Two pages, of which the first goes when a third is appended to at most two, and the last
when one is prepended. -/
theorem addPage_trims_two :
  let c : QueryClient (String ⊕ InfiniteData String Nat) :=
    QueryClient.new.setInfiniteData 0 (.new "k") (⟨["a", "b"], [0, 1]⟩ : InfiniteData String Nat) {}
  (∃ c' d, c.appendInfinitePage 0 (.new "k") "c" 2 (some 2) = some (c', some d) ∧
    InfiniteData.pushTrimmed ⟨["a", "b"], [0, 1]⟩ "c" 2 (some 2) = some d ∧
    d.zipped = [("b", 1), ("c", 2)] ∧ d.Paired ∧ c'.Stores (.new "k") d) ∧
  ∃ c' d, c.prependInfinitePage 0 (.new "k") "c" 2 (some 2) = (c', some d) ∧
    InfiniteData.insertTrimmed ⟨["a", "b"], [0, 1]⟩ "c" 2 (some 2) = d ∧
    d.zipped = [("c", 2), ("a", 0)] ∧ d.Paired ∧ c'.Stores (.new "k") d
  := by
  have h : (QueryClient.new.setInfiniteData 0 (.new "k")
      (⟨["a", "b"], [0, 1]⟩ : InfiniteData String Nat) {} :
        QueryClient (String ⊕ InfiniteData String Nat)).pagesOf (.new "k")
      = some (⟨["a", "b"], [0, 1]⟩ : InfiniteData String Nat) := by
    decide +kernel
  apply addPage_trims h rfl 0 "c" 2 (some 2)

end QueryClient

end RsQuery
