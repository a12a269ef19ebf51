/-
Sampling is without replacement, whatever the stream of words. What is asked of a
stream is only that a number drawn from a range lies in it (`draw_mem`).

A sample is built up under a bound that grows by one with each step: the sample
holds smaller numbers only, so the bound itself is always new, and it comes in
where the number drawn is there already (`IsSample.extend`). The place at which it
comes in does not matter to this, and neither does shuffling, which exchanges
numbers and nothing else. In the other way of sampling the whole range is shuffled
at its front, and the front is taken.
-/
import Assay.Random.Sample
import Mathlib.Data.List.Nodup
import Mathlib.Data.List.Perm.Subperm

namespace Assay.Random

variable {stream : Stream} {size count bound : Nat} {numbers : List Nat}

-- ========================================================== one number

theorem wordAt_lt (stream : Stream) (words position : Nat) :
    wordAt stream words position < capacity words := by
  induction words generalizing position with
  | zero => exact Nat.one_pos
  | succ words ih =>
      have hlow := (stream position).toNat_lt
      have hhigh := ih (position + 1)
      have hcapacity : capacity (words + 1) = 2 ^ 32 * capacity words := by
        rw [capacity, Nat.mul_succ, Nat.pow_eq, Nat.pow_add, Nat.mul_comm]
        rfl
      rw [wordAt, hcapacity, Nat.pow_eq]
      -- The high words are at least one short of their capacity, which leaves room for the low one.
      calc (stream position).toNat + 2 ^ 32 * wordAt stream words (position + 1)
          < 2 ^ 32 * (wordAt stream words (position + 1) + 1) := by omega
        _ ≤ 2 ^ 32 * capacity words := Nat.mul_le_mul_left _ hhigh

/-- The high half of a product with a range is in the range. -/
theorem mul_div_lt (stream : Stream) (words position : Nat) {range : Nat} (hrange : 0 < range) :
    wordAt stream words position * range / capacity words < range := by
  refine Nat.div_lt_of_lt_mul ?_
  exact Nat.mul_lt_mul_of_pos_right (wordAt_lt stream words position) hrange

/-- A number that is drawn is in its range, however many words it takes and however
many are passed over. -/
theorem below_lt {words bound range : Nat} (hrange : 0 < range) (tries position : Nat) :
    (below stream words bound range tries position).1 < range := by
  induction tries generalizing position with
  | zero => exact mul_div_lt stream words position hrange
  | succ tries ih =>
      rw [below]
      split
      · exact mul_div_lt stream words position hrange
      · exact ih (position + words)

theorem draw_mem {low high : Nat} (hrange : low < high) (position : Nat) :
    low ≤ (draw stream low high position).1 ∧ (draw stream low high position).1 < high := by
  have hbelow : (below stream 1 (zone (high - low)) (high - low) patience position).1
      < high - low := below_lt (by omega) patience position
  rw [draw]
  dsimp only
  omega

-- ============================================================== samples

/-- So many different numbers below a size. -/
structure IsSample (size count : Nat) (numbers : List Nat) : Prop where
  nodup : numbers.Nodup
  below : ∀ number ∈ numbers, number < size
  length_eq : numbers.length = count

theorem isSample_nil (size : Nat) : IsSample size 0 [] :=
  ⟨List.nodup_nil, fun _ hmem => absurd hmem List.not_mem_nil, rfl⟩

/-- The order does not matter. -/
theorem IsSample.perm {others : List Nat} (hsample : IsSample size count numbers)
    (hperm : others.Perm numbers) : IsSample size count others where
  nodup := hperm.nodup_iff.mpr hsample.nodup
  below number hmem := hsample.below number (hperm.mem_iff.mp hmem)
  length_eq := hperm.length_eq.trans hsample.length_eq

/-- A new number that is not beyond the bound makes a sample under the next
bound. -/
theorem IsSample.cons {number : Nat} (hsample : IsSample bound count numbers)
    (hnew : number ∉ numbers) (hle : number ≤ bound) :
    IsSample (bound + 1) (count + 1) (number :: numbers) where
  nodup := List.nodup_cons.mpr ⟨hnew, hsample.nodup⟩
  below := List.forall_mem_cons.mpr
    ⟨Nat.lt_succ_of_le hle, fun other hmem => Nat.lt_succ_of_lt (hsample.below other hmem)⟩
  length_eq := by rw [List.length_cons, hsample.length_eq]

theorem insertBefore_perm (new old : Nat) (numbers : List Nat) :
    (insertBefore new old numbers).Perm (new :: numbers) := by
  induction numbers with
  | nil => exact List.Perm.refl _
  | cons number numbers ih =>
      rw [insertBefore]
      split
      · exact List.Perm.refl _
      · exact (ih.cons number).trans (List.Perm.swap new number numbers)

/-- One step of building up: of the number drawn and the bound, one is new. -/
theorem IsSample.extend (hsample : IsSample bound count numbers) (ordered : Bool)
    (position : Nat) :
    IsSample (bound + 1) (count + 1) (extend stream ordered numbers bound position).1 := by
  have hdrawn : (draw stream 0 (bound + 1) position).1 < bound + 1 :=
    (draw_mem (Nat.succ_pos bound) position).2
  have hbound : bound ∉ numbers := fun hmem => Nat.lt_irrefl bound (hsample.below bound hmem)
  have happend (number : Nat) : (numbers ++ [number]).Perm (number :: numbers) :=
    List.perm_append_singleton number numbers
  rw [Random.extend]
  dsimp only
  split
  · -- the number drawn is there already, so the bound comes in
    refine (hsample.cons hbound (Nat.le_refl bound)).perm ?_
    dsimp only
    split
    · exact insertBefore_perm _ _ _
    · exact happend bound
  · next hnew => exact (hsample.cons hnew (Nat.le_of_lt_succ hdrawn)).perm (happend _)

theorem IsSample.extendMany (ordered : Bool) (steps : Nat) {position : Nat}
    (hsample : IsSample bound count numbers) :
    IsSample (bound + steps) (count + steps)
      (extendMany stream ordered steps bound numbers position).1 := by
  induction steps generalizing bound count numbers position with
  | zero => exact hsample
  | succ steps ih =>
      rw [Random.extendMany, ← Nat.add_assoc, ← Nat.add_assoc, Nat.add_right_comm,
        Nat.add_right_comm count]
      exact ih (hsample.extend ordered position)

-- ============================================================= shuffling

theorem exchange_perm (numbers : List Nat) (i j : Nat) :
    (exchange numbers i j).Perm numbers := by
  unfold exchange
  split
  · next a b ha hb =>
      obtain ⟨hi, rfl⟩ := List.getElem?_eq_some_iff.mp ha
      obtain ⟨hj, rfl⟩ := List.getElem?_eq_some_iff.mp hb
      have hswap : (numbers.toArray.swap i j hi hj).toList.Perm numbers :=
        (Array.swap_perm hi hj).toList
      rwa [Array.toList_swap] at hswap
  · exact List.Perm.refl _

theorem shuffleDown_perm (place : Nat) (numbers : List Nat) (position : Nat) :
    (shuffleDown stream place numbers position).1.Perm numbers := by
  induction place generalizing numbers position with
  | zero => exact List.Perm.refl _
  | succ place ih =>
      rw [shuffleDown]
      exact (ih _ _).trans (exchange_perm _ _ _)

theorem shuffleUp_perm (steps place : Nat) (numbers : List Nat) (position : Nat) :
    (shuffleUp stream size steps place numbers position).1.Perm numbers := by
  induction steps generalizing place numbers position with
  | zero => exact List.Perm.refl _
  | succ steps ih =>
      rw [shuffleUp]
      exact (ih _ _ _).trans (exchange_perm _ _ _)

-- =========================================================== drawing again

/-- A sample that is smaller than its range leaves a number out. -/
theorem IsSample.exists_new (hsample : IsSample size count numbers) (hcount : count < size) :
    ∃ number, (List.range size).find? (· ∉ numbers) = some number := by
  refine Option.ne_none_iff_exists'.mp fun hnone => ?_
  have hall : List.range size ⊆ numbers := fun number hmem => by
    simpa using List.find?_eq_none.mp hnone number hmem
  have hle : size ≤ count := by
    have := (List.nodup_range.subperm hall).length_le
    rwa [List.length_range, hsample.length_eq] at this
  omega

/-- The number that is added is new and in the range, also when no try finds one. -/
theorem IsSample.fresh {words : Nat} (hsample : IsSample size count numbers) (hcount : count < size)
    (tries position : Nat) :
    (fresh stream words size numbers tries position).1 ∉ numbers
      ∧ (fresh stream words size numbers tries position).1 < size := by
  induction tries generalizing position with
  | zero =>
      obtain ⟨number, hfound⟩ := hsample.exists_new hcount
      have hnew := List.find?_some hfound
      have hmem := List.mem_of_find?_eq_some hfound
      rw [Random.fresh, hfound]
      exact ⟨of_decide_eq_true hnew, List.mem_range.mp hmem⟩
  | succ tries ih =>
      rw [Random.fresh]
      dsimp only
      split
      · exact ih _
      · next hnew => exact ⟨hnew, below_lt (by omega) patience position⟩

/-- A new number of the range makes the sample greater. -/
theorem IsSample.concat {number : Nat} (hsample : IsSample size count numbers)
    (hnew : number ∉ numbers) (hbelow : number < size) :
    IsSample size (count + 1) (numbers ++ [number]) where
  nodup := (List.perm_append_singleton number numbers).nodup_iff.mpr
    (List.nodup_cons.mpr ⟨hnew, hsample.nodup⟩)
  below := List.forall_mem_append.mpr ⟨hsample.below, List.forall_mem_singleton.mpr hbelow⟩
  length_eq := by rw [List.length_append, hsample.length_eq, List.length_singleton]

theorem IsSample.redraw {words : Nat} (steps : Nat) {position : Nat}
    (hsample : IsSample size count numbers) (hsteps : count + steps ≤ size) :
    IsSample size (count + steps) (redraw stream words size steps numbers position).1 := by
  induction steps generalizing count numbers position with
  | zero => exact hsample
  | succ steps ih =>
      have hcount : count < size := by omega
      obtain ⟨hnew, hbelow⟩ := hsample.fresh hcount (patience * size) position
      rw [Random.redraw, ← Nat.add_assoc, Nat.add_right_comm]
      exact ih (hsample.concat hnew hbelow) (by omega)

-- ================================================================ the ways

theorem isSample_built (stream : Stream) (ordered : Bool) (position : Nat)
    (hcount : count ≤ size) :
    IsSample size count (extendMany stream ordered count (size - count) [] position).1 := by
  have hbuilt : IsSample (size - count + count) (0 + count)
      (extendMany stream ordered count (size - count) [] position).1 :=
    (isSample_nil (size - count)).extendMany ordered count
  rwa [Nat.sub_add_cancel hcount, Nat.zero_add] at hbuilt

theorem isSample_front (stream : Stream) (position : Nat) (hcount : count ≤ size) :
    IsSample size count
      ((shuffleUp stream size count 0 (List.range size) position).1.take count) := by
  have hperm : (shuffleUp stream size count 0 (List.range size) position).1.Perm (List.range size) :=
    shuffleUp_perm count 0 _ position
  refine ⟨(hperm.nodup_iff.mpr List.nodup_range).sublist (List.take_sublist _ _), ?_, ?_⟩
  · exact fun number hmem =>
      List.mem_range.mp (hperm.mem_iff.mp (List.mem_of_mem_take hmem))
  · rw [List.length_take, hperm.length_eq, List.length_range]
    exact Nat.min_eq_left hcount

theorem isSample_redrawn (stream : Stream) (words position : Nat) (hcount : count ≤ size) :
    IsSample size count (redraw stream words size count [] position).1 := by
  have hdrawn : IsSample size (0 + count) (redraw stream words size count [] position).1 :=
    (isSample_nil size).redraw count (by omega)
  rwa [Nat.zero_add] at hdrawn

/-- A sample of a range has as many numbers as it was asked for, all different and
all in the range, whichever way it is drawn. -/
theorem isSample_sample (stream : Stream) (hcount : count ≤ size) :
    IsSample size count (sample stream size count) := by
  rw [sample]
  split
  · dsimp only
    split
    · exact isSample_built stream _ _ hcount
    · exact (isSample_built stream _ _ hcount).perm (shuffleDown_perm _ _ _)
  · exact isSample_front stream _ hcount
  · exact isSample_redrawn stream _ _ hcount

-- =============================================================== choices

variable {α : Type} {items : List α}

/-- A list is what stands at its places. -/
theorem filterMap_range (items : List α) :
    (List.range items.length).filterMap (items[·]?) = items := by
  induction items with
  | nil => rfl
  | cons item items ih =>
      rw [List.length_cons, List.range_succ_eq_map, List.filterMap_cons, List.filterMap_map]
      exact congrArg (item :: ·) ih

/-- Items at different places of a list. -/
theorem filterMap_getElem?_subperm (hnodup : numbers.Nodup)
    (hbelow : ∀ number ∈ numbers, number < items.length) :
    (numbers.filterMap (items[·]?)).Subperm items := by
  have hrange : numbers.Subperm (List.range items.length) :=
    hnodup.subperm fun number hmem => List.mem_range.mpr (hbelow number hmem)
  obtain ⟨part, hperm, hsub⟩ := hrange
  refine ⟨part.filterMap (items[·]?), hperm.filterMap _, ?_⟩
  have hparts := hsub.filterMap (items[·]?)
  rwa [filterMap_range] at hparts

/-- A choice takes no item more often than it is there, and as many items as it
can. -/
theorem choose_subperm (stream : Stream) (items : List α) (count : Nat) :
    (choose stream items count).Subperm items :=
  have hsample := isSample_sample stream (Nat.min_le_right count items.length)
  filterMap_getElem?_subperm hsample.nodup hsample.below

theorem length_choose (stream : Stream) (items : List α) (count : Nat) :
    (choose stream items count).length = min count items.length := by
  have hsample := isSample_sample stream (Nat.min_le_right count items.length)
  rw [choose, List.filterMap_length_eq_length.mpr, hsample.length_eq]
  intro number hmem
  rw [List.getElem?_eq_getElem (hsample.below number hmem)]
  rfl

/-- All items are chosen when there are no more than asked for. -/
theorem choose_perm (stream : Stream) (hcount : items.length ≤ count) :
    (choose stream items count).Perm items := by
  refine (choose_subperm stream items count).perm_of_length_le ?_
  rw [length_choose]
  omega

end Assay.Random
