import FlatNet.Proofs.Feature.Batch
import FlatNet.Proofs.Feature.Safety

/-!
Feature maps side by side.

A concatenation lists the channels of every pixel operand by operand.  So a pixel of the result is
cut into parts, one for each operand, and every channel of the result lies in exactly one of them.
Reading the result behind the channels of the operands before one gives that operand back.

* `existsUnique_part`, `getElem?_flatMap_part`: places in parts that follow each other;
* `FeatureMap.channelsBefore`: the channels in front of an operand;
* `FeatureMap.exists_concat`: what is concatenated, and its elements in order;
* `FeatureMap.concat_recovers`: every operand is found in the result, and nothing else.
-/

namespace FlatNet

open Outcome (Ends)

/-! ### Parts -/

/-- A place in parts that follow each other lies in exactly one of them, at one place there. -/
lemma existsUnique_part {widths : List Nat} {k : Nat} (hk : k < widths.sum) :
    ∃! q : Nat × Nat, ∃ w, widths[q.1]? = some w ∧ q.2 < w ∧ (widths.take q.1).sum + q.2 = k := by
  induction widths generalizing k with
  | nil => exact absurd hk (Nat.not_lt_zero k)
  | cons width widths ih =>
    by_cases first : k < width
    · refine ⟨(0, k), ⟨width, rfl, first, Nat.zero_add k⟩, ?_⟩
      rintro ⟨j, c⟩ ⟨w, there, -, place⟩
      cases j with
      | zero => exact congrArg (0, ·) (Nat.zero_add c ▸ place)
      | succ j =>
        -- the later parts begin behind the first one
        simp only [List.take_succ_cons, List.sum_cons] at place
        omega
    · rw [List.sum_cons] at hk
      obtain ⟨⟨j, c⟩, ⟨w, there, hc, place⟩, only⟩ := ih (k := k - width) (by omega)
      refine ⟨(j + 1, c), ⟨w, there, hc, ?_⟩, ?_⟩
      · simp only [List.take_succ_cons, List.sum_cons]
        simp only at place
        omega
      · rintro ⟨j', c'⟩ ⟨w', there', hc', place'⟩
        cases j' with
        | zero =>
          obtain rfl := Option.some.inj there'
          simp only [List.take_zero, List.sum_nil] at place' hc'
          omega
        | succ j' =>
          simp only [List.take_succ_cons, List.sum_cons] at place'
          have same := only (j', c') ⟨w', there', hc', by simp only; omega⟩
          obtain ⟨rfl, rfl⟩ := Prod.mk.inj same
          rfl

/-- The entries of a part of a list that is put together of parts. -/
lemma getElem?_flatMap_part {α β : Type} {f : α → List β} {width : α → Nat} {xs : List α}
    (length : ∀ a ∈ xs, (f a).length = width a) {j c : Nat} {a : α} (hj : xs[j]? = some a)
    (hc : c < width a) : (xs.flatMap f)[((xs.take j).map width).sum + c]? = (f a)[c]? := by
  induction xs generalizing j with
  | nil => cases hj
  | cons x xs ih =>
    obtain ⟨first, later⟩ := List.forall_mem_cons.1 length
    rw [List.flatMap_cons]
    cases j with
    | zero =>
      obtain rfl := Option.some.inj hj
      rw [List.take_zero, List.map_nil, List.sum_nil, Nat.zero_add,
        List.getElem?_append_left (first ▸ hc)]
    | succ j =>
      rw [List.take_succ_cons, List.map_cons, List.sum_cons, ← first, Nat.add_assoc,
        List.getElem?_append_right (Nat.le_add_right _ _), Nat.add_sub_cancel_left]
      exact ih later hj

namespace FeatureMap

variable {ms : List FeatureMap} {m r : FeatureMap} {batch height width : Nat}

/-! ### Pixels -/

/-- The number of channels in front of an operand. -/
def channelsBefore (ms : List FeatureMap) (j : Nat) : Nat := channelSum (ms.take j)

/-- A channel of an operand is one of all of them. -/
lemma channelsBefore_add_lt {j c : Nat} (hj : ms[j]? = some m) (hc : c < m.hwc.channels) :
    channelsBefore ms j + c < channelSum ms := by
  have upTo : ((ms.take (j + 1)).map (·.hwc.channels)).sum
      = ((ms.take j).map (·.hwc.channels)).sum + m.hwc.channels := by
    rw [List.take_add_one, hj, List.map_append, List.sum_append]
    simp
  have all := List.sum_take_add_sum_drop (ms.map (·.hwc.channels)) (j + 1)
  rw [← List.map_take, upTo] at all
  rw [channelsBefore, channelSum_eq, channelSum_eq]
  omega

/-- Every channel of a concatenation is one channel of one operand. -/
lemma existsUnique_operand {k : Nat} (hk : k < channelSum ms) :
    ∃! q : Nat × Nat, ∃ m, ms[q.1]? = some m ∧ q.2 < m.hwc.channels ∧
      channelsBefore ms q.1 + q.2 = k := by
  rw [channelSum_eq] at hk
  refine (existsUnique_congr fun q => ?_).1 (existsUnique_part hk)
  simp only [List.getElem?_map, Option.map_eq_some_iff, channelsBefore, channelSum_eq,
    List.map_take]
  constructor
  · rintro ⟨_, ⟨m, there, rfl⟩, hc, place⟩
    exact ⟨m, there, hc, place⟩
  · rintro ⟨m, there, hc, place⟩
    exact ⟨_, ⟨m, there, rfl⟩, hc, place⟩

/-- The channels of a pixel, by the number of pixels before it. -/
def channelsAt (m : FeatureMap) (p : Nat) : Array Float32 :=
  m.data.extract (p * m.hwc.channels) (p * m.hwc.channels + m.hwc.channels)

/-- A feature map has a batch size, a height and a width, and the elements of its shape. -/
structure Fills (m : FeatureMap) (batch height width : Nat) : Prop where
  /-- It has the elements of its shape. -/
  sized : m.WellSized
  /-- It has the batch size, the height and the width. -/
  sides : m.batch = batch ∧ m.hwc.height = height ∧ m.hwc.width = width

namespace Fills

variable (h : m.Fills batch height width) {p : Nat} (hp : p < batch * height * width)
include h hp

lemma inside : p * m.hwc.channels + m.hwc.channels ≤ m.data.size := by
  obtain ⟨rfl, rfl, rfl⟩ := h.sides
  exact h.sized.inside hp

lemma size_channelsAt : (m.channelsAt p).toList.length = m.hwc.channels := by
  have inside := h.inside hp
  rw [Array.length_toList, channelsAt, Array.size_extract]
  omega

/-- The channels of a pixel are read. -/
lemma part_eq_value {ε : Type} :
    (do part m.data (← Size.mul p m.hwc.channels) m.hwc.channels : Outcome ε (Array Float32))
      = .value (m.channelsAt p) := by
  have inside := h.inside hp
  have small := h.sized.products.2.2.2
  exact Outcome.bind_eq_value_iff.2
    ⟨_, Size.mul_eq_value_iff.2 ⟨by omega, rfl⟩, if_pos inside⟩

end Fills

/-- The channels of a pixel are its elements. -/
lemma WellSized.getElem?_channelsAt (h : m.WellSized) {n y x c : Nat} (hn : n < m.batch)
    (hy : y < m.hwc.height) (hx : x < m.hwc.width) (hc : c < m.hwc.channels) :
    (m.channelsAt ((n * m.hwc.height + y) * m.hwc.width + x)).toList[c]?
      = some (m.entry n y x c) := by
  have inside := place_lt hn hy hx hc
  rw [h.products.2.2.1] at inside
  rw [Array.getElem?_toList, channelsAt, Array.getElem?_extract, if_pos (by
    rw [place] at inside
    omega), entry, Array.getD, dif_pos inside]
  exact Array.getElem?_eq_getElem inside

/-! ### Concatenations -/

/-- The elements of a concatenation: the channels of every operand, pixel by pixel. -/
def sideBySide (ms : List FeatureMap) (pixels : Nat) : List Float32 :=
  (List.range pixels).flatMap fun p => ms.flatMap fun m => (m.channelsAt p).toList

section Operands

variable (filled : ∀ m ∈ ms, m.Fills batch height width)
include filled

lemma length_pixel {p : Nat} (hp : p < batch * height * width) :
    (ms.flatMap fun m => (m.channelsAt p).toList).length = channelSum ms := by
  rw [List.length_flatMap, channelSum_eq]
  exact congrArg List.sum (List.map_congr_left fun m hm => (filled m hm).size_channelsAt hp)

lemma length_sideBySide :
    (sideBySide ms (batch * height * width)).length = batch * height * width * channelSum ms := by
  rw [sideBySide, List.length_flatMap,
    List.map_congr_left fun p hp => length_pixel filled (List.mem_range.1 hp)]
  simp

/-- An element of a concatenation is that of an operand. -/
lemma getElem?_sideBySide {p j c : Nat} (hp : p < batch * height * width) (hj : ms[j]? = some m)
    (hc : c < m.hwc.channels) :
    (sideBySide ms (batch * height * width))[p * channelSum ms + (channelsBefore ms j + c)]?
      = (m.channelsAt p).toList[c]? := by
  rw [sideBySide, getElem?_flatMap_rows (channelsBefore_add_lt hj hc) fun p hp =>
      length_pixel filled (List.mem_range.1 hp), List.getElem?_range hp, Option.bind_some,
    channelsBefore, channelSum_eq]
  exact getElem?_flatMap_part (fun m hm => (filled m hm).size_channelsAt hp) hj hc

/-- Feature maps of one size for whose channels there is room are concatenated. -/
lemma exists_concat (some : ms ≠ []) (channels : channelSum ms < Size.bound)
    (room : reserve batch ⟨height, width, channelSum ms⟩ = .value ()) :
    ∃ r, concat ms = .value r ∧ r.Shaped batch ⟨height, width, channelSum ms⟩ ∧ r.WellSized ∧
      r.data.toList = sideBySide ms (batch * height * width) := by
  cases ms with
  | nil => exact absurd rfl some
  | cons first rest =>
    obtain ⟨sized, rfl, rfl, rfl⟩ := filled first (List.mem_cons_self ..)
    obtain ⟨rows, pixels, -, -⟩ := sized.products
    have same := all_sides_iff.2 fun m hm => (filled m hm).sides
    have sum : (Size.sum ((first :: rest).map (·.hwc.channels)) : KernelOutcome Nat)
        = .value (channelSum (first :: rest)) := by
      rw [channelSum_eq] at channels ⊢
      exact Size.sum_eq_value_iff.2 ⟨channels, rfl⟩
    -- every part that is copied is a row of channels inside its map
    have read := Outcome.mapM_eq_value fun p hp => Outcome.mapM_eq_value (ε := KernelError)
      fun m hm => (filled m hm).part_eq_value (List.mem_range.1 hp)
    have area : (Size.mul first.batch first.hwc.height : KernelOutcome Nat) = .value _ :=
      Size.mul_eq_value_iff.2 ⟨rows, rfl⟩
    have count : (Size.mul (first.batch * first.hwc.height) first.hwc.width : KernelOutcome Nat)
        = .value _ := Size.mul_eq_value_iff.2 ⟨pixels, rfl⟩
    simp only [concat, same, Outcome.require_true, Outcome.value_bind, sum, area, count, room, read]
    generalize made : List.foldl (· ++ ·) #[] (List.flatten _) = data
    have list : data.toList
        = sideBySide (first :: rest) (first.batch * first.hwc.height * first.hwc.width) := by
      rw [← made, toList_rows, List.flatMap_map, sideBySide]
      exact List.flatMap_congr fun p _ => List.flatMap_map ..
    have full : WellSized ⟨first.batch, ⟨first.hwc.height, first.hwc.width,
        channelSum (first :: rest)⟩, data⟩ := by
      obtain ⟨_, counted, -⟩ := (reserve_ends ..).of_value room
      obtain rfl := elementCount?_eq counted
      rw [WellSized, counted, ← Array.length_toList, list, length_sideBySide filled]
    exact ⟨_, if_pos full, ⟨rfl, rfl⟩, full, list⟩

/-- The elements of a concatenation are those of the operands. -/
lemma concat_element {r : FeatureMap} (shaped : r.Shaped batch ⟨height, width, channelSum ms⟩)
    (sized : r.WellSized) (list : r.data.toList = sideBySide ms (batch * height * width))
    {j n y x c : Nat} (hj : ms[j]? = some m) (hn : n < batch) (hy : y < height) (hx : x < width)
    (hc : c < m.hwc.channels) :
    ∃ e, (m.at n y x c : KernelOutcome Float32) = .value e ∧
      (r.at n y x (channelsBefore ms j + c) : KernelOutcome Float32) = .value e := by
  have inside := channelsBefore_add_lt hj hc
  obtain ⟨own, rfl, rfl, rfl⟩ := filled m (List.mem_of_getElem? hj)
  obtain ⟨same, shape⟩ := shaped
  have pixel := Size.row_add_lt (Size.row_add_lt hn hy) hx
  have there := getElem?_sideBySide filled pixel hj hc
  rw [own.getElem?_channelsAt hn hy hx hc] at there
  refine ⟨m.entry n y x c, own.at hn hy hx hc, ?_⟩
  rw [sized.at (same ▸ hn) (by rw [shape]; exact hy) (by rw [shape]; exact hx)
    (by rw [shape]; exact inside), entry, Array.getD_eq_getD_getElem?, ← Array.getElem?_toList,
    list, shape, place, there]
  rfl

/-- There is room for a concatenation whose bytes can be allocated. -/
lemma reserve_concat (some : ms ≠ [])
    (room : 4 * (batch * height * width * channelSum ms) ≤ maxAllocation) :
    reserve batch ⟨height, width, channelSum ms⟩ = .value () := by
  obtain ⟨m, hm⟩ := List.exists_mem_of_ne_nil ms some
  obtain ⟨sized, rfl, rfl, rfl⟩ := filled m hm
  obtain ⟨rows, pixels, -, -⟩ := sized.products
  have total : m.batch * m.hwc.height * m.hwc.width * channelSum ms < Size.bound := by
    rw [maxAllocation] at room
    rw [Size.bound]
    omega
  have counted : elementCount? m.batch ⟨m.hwc.height, m.hwc.width, channelSum ms⟩
      = Option.some (m.batch * m.hwc.height * m.hwc.width * channelSum ms) := by
    simp only [elementCount?, Size.product?, List.foldlM_cons, List.foldlM_nil,
      Option.bind_eq_bind, Option.bind_eq_some_iff, Size.mul?_eq_some_iff]
    exact ⟨_, ⟨rows, rfl⟩, _, ⟨pixels, rfl⟩, _, ⟨total, rfl⟩, rfl⟩
  simp only [reserve, counted, if_pos room]

end Operands

/-- Feature maps of one size are concatenated if their channels together are a size and there is
room for the result.  Every element of every operand is found at its position, behind the channels
of the operands before it; and every channel of the result is one channel of one operand, so there
is nothing else. -/
theorem concat_recovers (nonempty : ms ≠ []) (filled : ∀ m ∈ ms, m.Fills batch height width)
    (channels : channelSum ms < Size.bound)
    (room : 4 * (batch * height * width * channelSum ms) ≤ maxAllocation) :
    ∃ r, concat ms = .value r ∧ r.Shaped batch ⟨height, width, channelSum ms⟩ ∧ r.WellSized ∧
      (∀ j m, ms[j]? = some m →
        ∀ n < batch, ∀ y < height, ∀ x < width, ∀ c < m.hwc.channels,
          ∃ e, (m.at n y x c : KernelOutcome Float32) = .value e ∧
            (r.at n y x (channelsBefore ms j + c) : KernelOutcome Float32) = .value e) ∧
      ∀ k < channelSum ms, ∃! q : Nat × Nat, ∃ m, ms[q.1]? = some m ∧ q.2 < m.hwc.channels ∧
        channelsBefore ms q.1 + q.2 = k := by
  obtain ⟨r, result, shaped, sized, list⟩ :=
    exists_concat filled nonempty channels (reserve_concat filled nonempty room)
  refine ⟨r, result, shaped, sized, fun j m hj n hn y hy x hx c hc => ?_, fun k hk => ?_⟩
  · exact concat_element filled shaped sized list hj hn hy hx hc
  · exact existsUnique_operand hk

/-- A feature map on both sides of another one. -/
theorem concat_recovers_repeated :
    let one : FeatureMap := ⟨1, ⟨1, 2, 1⟩, #[1, 2]⟩
    let two : FeatureMap := ⟨1, ⟨1, 2, 2⟩, #[3, 4, 5, 6]⟩
    ∃ r, concat [one, two, one] = .value r ∧ r.Shaped 1 ⟨1, 2, 4⟩ ∧
      (∃ e, (one.at 0 0 1 0 : KernelOutcome Float32) = .value e ∧
        (r.at 0 0 1 0 : KernelOutcome Float32) = .value e ∧
        (r.at 0 0 1 3 : KernelOutcome Float32) = .value e) ∧
      ∃ e, (two.at 0 0 1 1 : KernelOutcome Float32) = .value e ∧
        (r.at 0 0 1 2 : KernelOutcome Float32) = .value e := by
  intro one two
  have filled : ∀ m ∈ [one, two, one], m.Fills 1 1 2 := by
    simp only [List.forall_mem_cons, List.not_mem_nil, false_implies, implies_true, and_true]
    exact ⟨⟨rfl, rfl, rfl, rfl⟩, ⟨rfl, rfl, rfl, rfl⟩, ⟨rfl, rfl, rfl, rfl⟩⟩
  obtain ⟨r, result, shaped, -, elements, -⟩ :=
    concat_recovers (List.cons_ne_nil _ _) filled (by decide) (by decide)
  obtain ⟨e, first, left⟩ := elements 0 one rfl 0 (by decide) 0 (by decide) 1 (by decide) 0
    (by decide)
  obtain ⟨e', again, right⟩ := elements 2 one rfl 0 (by decide) 0 (by decide) 1 (by decide) 0
    (by decide)
  obtain rfl := Outcome.value.inj (first.symm.trans again)
  exact ⟨r, result, shaped, ⟨e, first, left, right⟩,
    elements 1 two rfl 0 (by decide) 0 (by decide) 1 (by decide) 1 (by decide)⟩

end FeatureMap

end FlatNet
