import FlatNet.Proofs.Feature.Kernels

/-!
The elements of feature maps.

An element has a place that is computed from its image, row, column and channel.  In a feature map
that has the elements of its shape all the sums and products on the way are sizes, so the element is
read; and a table of elements has at every place the element of the position that the place belongs
to.

* `FeatureMap.place`, `FeatureMap.entry`: places and elements;
* `FeatureMap.WellSized.index`, `FeatureMap.WellSized.at`, `FeatureMap.WellSized.pixel`: what is
  read of a feature map;
* `FeatureMap.position_place`: places and positions;
* `FeatureMap.Tabulates`, `FeatureMap.tabulate_eq_value`: tables of elements.
-/

namespace FlatNet.FeatureMap

variable {ε : Type} {m r : FeatureMap} {batch n y x c : Nat} {hwc : Hwc}

/-! ### Places -/

/-- The place of an element of images of a shape. -/
def place (hwc : Hwc) (n y x c : Nat) : Nat :=
  ((n * hwc.height + y) * hwc.width + x) * hwc.channels + c

/-- The element at an image, row, column and channel. -/
def entry (m : FeatureMap) (n y x c : Nat) : Float32 := m.data.getD (place m.hwc n y x c) 0

/-- The position of a place. -/
lemma position_place (n : Nat) (hy : y < hwc.height) (hx : x < hwc.width) (hc : c < hwc.channels) :
    position hwc (place hwc n y x c) = (n, y, x, c) := by
  obtain ⟨pixel, channel⟩ := Size.row_of_place ((n * hwc.height + y) * hwc.width + x) hc
  obtain ⟨row, column⟩ := Size.row_of_place (n * hwc.height + y) hx
  obtain ⟨image, line⟩ := Size.row_of_place n hy
  simp only [position, place, pixel, channel, row, column, image, line]

/-- Every place is that of its position. -/
lemma place_position (hwc : Hwc) (i : Nat) :
    place hwc (position hwc i).1 (position hwc i).2.1 (position hwc i).2.2.1 (position hwc i).2.2.2
      = i := by
  simp only [place, position, Nat.div_add_mod']

/-- The place of an element is inside. -/
lemma place_lt (hn : n < batch) (hy : y < hwc.height) (hx : x < hwc.width)
    (hc : c < hwc.channels) :
    place hwc n y x c < batch * hwc.height * hwc.width * hwc.channels :=
  Size.row_add_lt (Size.row_add_lt (Size.row_add_lt hn hy) hx) hc

/-- The channels of a pixel are inside. -/
lemma place_add_le (hn : n < batch) (hy : y < hwc.height) (hx : x < hwc.width) :
    place hwc n y x 0 + hwc.channels ≤ batch * hwc.height * hwc.width * hwc.channels := by
  rw [place, Nat.add_zero, ← Nat.succ_mul]
  exact Nat.mul_le_mul_right _ (Size.row_add_lt (Size.row_add_lt hn hy) hx)

/-! ### Reading -/

namespace WellSized

/-- The partial products of the sides of a feature map are sizes. -/
lemma products (h : m.WellSized) :
    m.batch * m.hwc.height < Size.bound ∧ m.batch * m.hwc.height * m.hwc.width < Size.bound ∧
      m.batch * m.hwc.height * m.hwc.width * m.hwc.channels = m.data.size ∧
      m.data.size < Size.bound := by
  simp only [WellSized, elementCount?, Size.product?, List.foldlM_cons, List.foldlM_nil,
    Option.bind_eq_bind, Option.bind_eq_some_iff, Size.mul?_eq_some_iff] at h
  obtain ⟨_, ⟨first, rfl⟩, _, ⟨second, rfl⟩, _, ⟨third, rfl⟩, same⟩ := h
  have count := Option.some.inj same
  exact ⟨first, second, count, count ▸ third⟩

/-- The channels behind so many pixels are inside. -/
lemma inside (h : m.WellSized) {p : Nat} (hp : p < m.batch * m.hwc.height * m.hwc.width) :
    p * m.hwc.channels + m.hwc.channels ≤ m.data.size := by
  rw [← h.products.2.2.1, ← Nat.succ_mul]
  exact Nat.mul_le_mul_right _ hp

/-- The place of an element is computed. -/
lemma index (h : m.WellSized) (hn : n < m.batch) (hy : y < m.hwc.height) (hx : x < m.hwc.width)
    (hc : c ≤ m.hwc.channels) :
    (m.index n y x c : Outcome ε Nat) = .value (place m.hwc n y x c) := by
  obtain ⟨rows, pixels, count, size⟩ := h.products
  have row := Size.row_add_lt hn hy
  have pixel := Size.row_add_lt row hx
  have last := place_add_le hn hy hx
  rw [place, Nat.add_zero, count] at last
  simp only [FeatureMap.index, Outcome.bind_eq_value_iff, Size.mul_eq_value_iff,
    Size.add_eq_value_iff]
  exact ⟨_, ⟨by omega, rfl⟩, _, ⟨by omega, rfl⟩, _, ⟨by omega, rfl⟩, _, ⟨by omega, rfl⟩, _,
    ⟨by omega, rfl⟩, by omega, rfl⟩

/-- The element is read. -/
lemma «at» (h : m.WellSized) (hn : n < m.batch) (hy : y < m.hwc.height) (hx : x < m.hwc.width)
    (hc : c < m.hwc.channels) : (m.at n y x c : Outcome ε Float32) = .value (m.entry n y x c) := by
  have inside := place_lt hn hy hx hc
  rw [h.products.2.2.1] at inside
  rw [FeatureMap.at, h.index hn hy hx hc.le, Outcome.value_bind, entry, Array.getD,
    dif_pos inside, Array.getElem?_eq_getElem inside]
  rfl

/-- The channels of a pixel are read. -/
lemma pixel (h : m.WellSized) (hn : n < m.batch) (hy : y < m.hwc.height) (hx : x < m.hwc.width) :
    (m.pixel n y x : Outcome ε (Array Float32)) = .value
      (m.data.extract (place m.hwc n y x 0) (place m.hwc n y x 0 + m.hwc.channels)) := by
  have inside := place_add_le hn hy hx
  rw [h.products.2.2.1] at inside
  rw [FeatureMap.pixel, h.index hn hy hx (Nat.zero_le _), Outcome.value_bind, part, if_pos inside]

end WellSized

/-! ### Tables -/

/-- A feature map of a shape whose elements are those of a function of the position. -/
structure Tabulates (r : FeatureMap) (batch : Nat) (hwc : Hwc)
    (f : Nat → Nat → Nat → Nat → Float32) : Prop where
  /-- It has the shape. -/
  shaped : r.Shaped batch hwc
  /-- It has the elements of it. -/
  sized : r.WellSized
  /-- At every position is the element of it. -/
  element : ∀ n y x c, n < batch → y < hwc.height → x < hwc.width → c < hwc.channels →
    (r.at n y x c : KernelOutcome Float32) = .value (f n y x c)

/-- The position of a place in a table. -/
lemma position_lt {i : Nat} (hi : i < batch * hwc.height * hwc.width * hwc.channels) :
    (position hwc i).1 < batch ∧ (position hwc i).2.1 < hwc.height ∧
      (position hwc i).2.2.1 < hwc.width ∧ (position hwc i).2.2.2 < hwc.channels := by
  have channels : 0 < hwc.channels := Nat.pos_of_mul_pos_left (Nat.zero_lt_of_lt hi)
  have pixel : i / hwc.channels < batch * hwc.height * hwc.width :=
    (Nat.div_lt_iff_lt_mul channels).2 hi
  have width : 0 < hwc.width := Nat.pos_of_mul_pos_left (Nat.zero_lt_of_lt pixel)
  have row : i / hwc.channels / hwc.width < batch * hwc.height :=
    (Nat.div_lt_iff_lt_mul width).2 pixel
  have height : 0 < hwc.height := Nat.pos_of_mul_pos_left (Nat.zero_lt_of_lt row)
  exact ⟨(Nat.div_lt_iff_lt_mul height).2 row, Nat.mod_lt _ height, Nat.mod_lt _ width,
    Nat.mod_lt _ channels⟩

/-- The elements of a function of the position, in order. -/
def elements (batch : Nat) (hwc : Hwc) (f : Nat → Nat → Nat → Nat → Float32) : List Float32 :=
  (List.range (batch * hwc.height * hwc.width * hwc.channels)).map fun i =>
    let (n, y, x, c) := position hwc i
    f n y x c

lemma getElem?_elements (f : Nat → Nat → Nat → Nat → Float32) (hn : n < batch)
    (hy : y < hwc.height) (hx : x < hwc.width) (hc : c < hwc.channels) :
    (elements batch hwc f)[place hwc n y x c]? = some (f n y x c) := by
  rw [elements, List.getElem?_map, List.getElem?_range (place_lt hn hy hx hc), Option.map_some,
    position_place n hy hx hc]

lemma room_of_tabulate {f : Nat → Nat → Nat → Nat → KernelOutcome Float32}
    (h : tabulate batch hwc f = .value r) : reserve batch hwc = .value () := by
  obtain ⟨_, room, -⟩ := Outcome.bind_eq_value_iff.1 h
  exact room

/-- A table for which there is room has the elements of its function, if these are computed. -/
lemma tabulate_eq_value {f : Nat → Nat → Nat → Nat → KernelOutcome Float32}
    {g : Nat → Nat → Nat → Nat → Float32} (room : reserve batch hwc = .value ())
    (each : ∀ n y x c, n < batch → y < hwc.height → x < hwc.width → c < hwc.channels →
      f n y x c = .value (g n y x c)) :
    ∃ r, tabulate batch hwc f = .value r ∧ r.Tabulates batch hwc g := by
  obtain ⟨_, counted, -⟩ := (reserve_ends batch hwc).of_value room
  have sized : WellSized ⟨batch, hwc, (elements batch hwc g).toArray⟩ := by
    obtain rfl := elementCount?_eq counted
    rw [WellSized, counted, List.size_toArray, elements, List.length_map, List.length_range]
  refine ⟨_, ?_, ⟨rfl, rfl⟩, sized, fun n y x c hn hy hx hc => ?_⟩
  · rw [tabulate, room, Outcome.value_bind, Outcome.bind_eq_value_iff]
    refine ⟨_, Outcome.mapM_eq_value fun i hi => ?_, if_pos sized⟩
    obtain ⟨hn, hy, hx, hc⟩ := position_lt (List.mem_range.1 hi)
    exact each _ _ _ _ hn hy hx hc
  · rw [sized.at hn hy hx hc, entry, Array.getD_eq_getD_getElem?, List.getElem?_toArray,
      getElem?_elements g hn hy hx hc]
    rfl

end FlatNet.FeatureMap
