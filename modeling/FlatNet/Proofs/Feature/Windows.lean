import FlatNet.Proofs.Feature.Geometry

/-!
What the operations on windows compute.

A window at an output position has elements over the input and elements over the padding.  Those
over the input are listed row by row; a fold over a window is the fold over this list, and a
convolution adds the products of the elements listed with the filter, from left to right.

* `Window.covered`, `Window.under`: the elements over the input, and the pixels under them;
* `Window.place_eq_value`, `Window.foldM_eq_value`: the place of a window and a fold over it;
* `FeatureMap.products`, `FeatureMap.channelProducts`, `FeatureMap.covered`: what is added, and of
  what there is a maximum;
* `conv2d_eq_value`, `depthwiseConv2d_eq_value`, `maxPool2d_eq_value`: the results;
* `windows_compute`: all of them, for every window that has positions on an image.
-/

namespace FlatNet

variable {ε α : Type}

/-- A fold over pairs, the first of them outside. -/
lemma foldl_product {β γ : Type} (f : α → β × γ → α) (xs : List β) (ys : List γ) (start : α) :
    (xs ×ˢ ys).foldl f start
      = xs.foldl (fun acc x => ys.foldl (fun acc y => f acc (x, y)) acc) start := by
  change (List.product xs ys).foldl f start = _
  simp only [List.product, List.foldl_flatMap, List.foldl_map]

/-! ### Elements of windows -/

namespace Window

variable {w : Window} {input : Hwc} {pad : Nat × Nat} {h v oy ox : Nat}

/-- The elements of a window at an output position of an axis that lie over the input. -/
def kept (out kernel stride pad len : Nat) : List Nat :=
  (List.range kernel).filter fun k =>
    0 ≤ coordinate out k stride pad ∧ coordinate out k stride pad < len

/-- The elements of a window at an output position that lie over the input, row by row. -/
def covered (w : Window) (input : Hwc) (pad : Nat × Nat) (oy ox : Nat) : List (Nat × Nat) :=
  kept oy w.kernel.1 w.strides.1 pad.1 input.height ×ˢ
    kept ox w.kernel.2 w.strides.2 pad.2 input.width

/-- The row and column of the pixel under an element of a window. -/
def under (w : Window) (pad : Nat × Nat) (oy ox : Nat) (k : Nat × Nat) : Nat × Nat :=
  ((coordinate oy k.1 w.strides.1 pad.1).toNat, (coordinate ox k.2 w.strides.2 pad.2).toNat)

lemma mem_kept_iff {out kernel stride pad len k : Nat} :
    k ∈ kept out kernel stride pad len ↔
      k < kernel ∧ 0 ≤ coordinate out k stride pad ∧ coordinate out k stride pad < len := by
  rw [kept, List.mem_filter, List.mem_range, decide_eq_true_eq]

/-- An element that is listed belongs to the window, and the pixel under it to the input. -/
lemma of_mem_covered {k : Nat × Nat} (hk : k ∈ w.covered input pad oy ox) :
    k.1 < w.kernel.1 ∧ k.2 < w.kernel.2 ∧ (w.under pad oy ox k).1 < input.height ∧
      (w.under pad oy ox k).2 < input.width := by
  obtain ⟨row, column⟩ := List.mem_product.1 hk
  obtain ⟨ky, front, rear⟩ := mem_kept_iff.1 row
  obtain ⟨kx, left, right⟩ := mem_kept_iff.1 column
  exact ⟨ky, kx, (Int.toNat_lt front).2 rear, (Int.toNat_lt left).2 right⟩

/-- A loop along an axis that leaves out the padding is a fold over what lies over the input. -/
lemma foldlM_source_eq_value {out kernel stride pad len : Nat}
    (reach : ∀ k < kernel, out * stride + k < Size.bound) (start : α)
    {step : α → Nat → Nat → Outcome ε α} {g : α → Nat → α}
    (each : ∀ acc, ∀ k ∈ kept out kernel stride pad len,
      step acc k (coordinate out k stride pad).toNat = .value (g acc k)) :
    (List.range kernel).foldlM (fun acc k => do
        match ← source out k stride pad len with
        | none => return acc
        | some i => step acc k i) start
      = .value ((kept out kernel stride pad len).foldl g start) := by
  rw [kept, List.foldl_filter]
  refine Outcome.foldlM_eq_value fun acc k hk => ?_
  have inside := List.mem_range.1 hk
  rw [source_eq_value (reach k inside), Outcome.value_bind]
  -- a coordinate outside of the input is skipped, as it is in the filtered list
  by_cases real : 0 ≤ coordinate out k stride pad ∧ coordinate out k stride pad < len
  · rw [if_pos real, if_pos (decide_eq_true real)]
    exact each acc k (mem_kept_iff.2 ⟨inside, real⟩)
  · rw [if_neg real, if_neg (by simpa using real)]
    rfl

/-- The padding in front of an image, above it and to the left. -/
def front (w : Window) (input : Hwc) : Nat × Nat :=
  (w.padding.front input.height w.kernel.1 w.strides.1,
    w.padding.front input.width w.kernel.2 w.strides.2)

/-- A window that makes something of an image is placed, if the last window ends at a size. -/
lemma place_eq_value (made : w.Makes input h v) (near : ¬ w.Overreaches input) (channels : Nat) :
    w.place input channels = .value (⟨h, v, channels⟩, w.front input) := by
  obtain ⟨-, -, sh, sw⟩ := degenerate_eq_false made.proper
  obtain ⟨down, across⟩ := not_or.1 near
  simp only [place, made.proper, Bool.not_false, Outcome.require_true, Outcome.value_bind,
    Padding.outputLen_of_covers sh made.rows, Padding.outputLen_of_covers sw made.columns,
    Padding.padBefore_eq_value _ sh down, Padding.padBefore_eq_value _ sw across, front,
    Outcome.pure_eq]

/-- A fold over a window at one of its positions is a fold over what lies over the input. -/
lemma foldM_eq_value (bounded : input.Bounded) (near : ¬ w.Overreaches input)
    (made : w.Makes input h v) (hy : oy < h) (hx : ox < v) (start : α)
    {step : α → Nat × Nat → Nat × Nat → Outcome ε α} {g : α → Nat × Nat → α}
    (each : ∀ acc, ∀ k ∈ w.covered input pad oy ox,
      step acc k (w.under pad oy ox k) = .value (g acc k)) :
    w.foldM input pad oy ox start step = .value ((w.covered input pad oy ox).foldl g start) := by
  obtain ⟨-, -, sh, sw⟩ := degenerate_eq_false made.proper
  obtain ⟨down, across⟩ := not_or.1 near
  rw [covered, foldl_product]
  refine foldlM_source_eq_value (fun k hk => made.rows.add_lt sh bounded.rows down hy hk) start
    fun acc ky row => ?_
  refine foldlM_source_eq_value (fun k hk => made.columns.add_lt sw bounded.columns across hx hk)
    acc fun acc kx column => ?_
  exact each acc (ky, kx) (List.mem_product.2 ⟨row, column⟩)

end Window

/-! ### Elements of results -/

namespace FeatureMap

variable {m : FeatureMap} {w : Window} {filter : Array Float32} {bias : Option (Array Float32)}
  {a : Activation} {pad : Nat × Nat} {h v out n oy ox c : Nat}

/-- The sum of numbers, from left to right. -/
def sum (xs : List Float32) : Float32 := xs.foldl (· + ·) 0

/-- A number with the bias of a channel, if there is one. -/
def biased (x : Float32) (bias : Option (Array Float32)) (c : Nat) : Float32 :=
  bias.elim x fun b => x + b.getD c 0

/-- The elements of a channel under a window, by rows and columns of the window. -/
def covered (m : FeatureMap) (w : Window) (pad : Nat × Nat) (n oy ox c : Nat) : List Float32 :=
  (w.covered m.hwc pad oy ox).map fun k =>
    m.entry n (w.under pad oy ox k).1 (w.under pad oy ox k).2 c

/-- The products that a convolution adds, by rows and columns of the window and input channels. -/
def products (m : FeatureMap) (filter : Array Float32) (w : Window) (pad : Nat × Nat)
    (n oy ox oc : Nat) : List Float32 :=
  (w.covered m.hwc pad oy ox ×ˢ List.range m.hwc.channels).map fun (k, ic) =>
    m.entry n (w.under pad oy ox k).1 (w.under pad oy ox k).2 ic *
      filter.getD (place ⟨w.kernel.1, w.kernel.2, m.hwc.channels⟩ oc k.1 k.2 ic) 0

/-- The products that a convolution per channel adds, by rows and columns of the window. -/
def channelProducts (m : FeatureMap) (filter : Array Float32) (w : Window) (pad : Nat × Nat)
    (n oy ox c : Nat) : List Float32 :=
  (w.covered m.hwc pad oy ox).map fun k =>
    m.entry n (w.under pad oy ox k).1 (w.under pad oy ox k).2 c *
      filter.getD (place ⟨w.kernel.1, w.kernel.2, m.hwc.channels⟩ 0 k.1 k.2 c) 0

/-- The products of parts of two arrays are added one by one. -/
lemma addProducts_extract (acc : Float32) {xs ws : Array Float32} {i j count : Nat}
    (hxs : i + count ≤ xs.size) (hws : j + count ≤ ws.size) :
    addProducts acc (xs.extract i (i + count)) (ws.extract j (j + count))
      = (List.range count).foldl
          (fun acc k => acc + xs.getD (i + k) 0 * ws.getD (j + k) 0) acc := by
  have pairs : ((xs.extract i (i + count)).zip (ws.extract j (j + count))).toList
      = (List.range count).map fun k => (xs.getD (i + k) 0, ws.getD (j + k) 0) := by
    refine List.ext_getElem ?_ fun k left right => ?_
    · simp only [Array.length_toList, Array.size_zip, Array.size_extract, List.length_map,
        List.length_range]
      omega
    · rw [List.length_map, List.length_range] at right
      have here : i + k < xs.size := by omega
      have there : j + k < ws.size := by omega
      simp [Array.getD, here, there]
  rw [addProducts, ← Array.foldl_toList, pairs, List.foldl_map]

lemma addBias_eq_value (x : Float32) (fits : ∀ b, bias = some b → c < b.size) :
    (addBias x bias c : Outcome ε Float32) = .value (biased x bias c) := by
  cases bias with
  | none => rfl
  | some b =>
    have inside := fits b rfl
    simp [addBias, biased, Array.getD, inside, Outcome.orFault]

/-- The products of a pixel with the part of a filter that belongs to an element of the window
are added. -/
lemma addPixel_eq_value {height width iy ix ky kx : Nat} (sized : m.WellSized)
    (fits : WellSized ⟨out, ⟨height, width, m.hwc.channels⟩, filter⟩) (hn : n < m.batch)
    (hiy : iy < m.hwc.height) (hix : ix < m.hwc.width) (hc : c < out) (hky : ky < height)
    (hkx : kx < width) (acc : Float32) :
    (do let row ← Size.add (← Size.mul c height) ky
        let start ← Size.mul (← Size.add (← Size.mul row width) kx) m.hwc.channels
        let weights ← part filter start m.hwc.channels
        return addProducts acc (← m.pixel n iy ix) weights : Outcome ε Float32)
      = .value ((List.range m.hwc.channels).foldl (fun acc ic => acc + m.entry n iy ix ic *
          filter.getD (place ⟨height, width, m.hwc.channels⟩ c ky kx ic) 0) acc) := by
  obtain ⟨rows, elements, count, small⟩ := fits.products
  dsimp only at rows elements count small
  -- the place of the filter row is computed in three steps, each of which stays in range
  have row := Size.row_add_lt hc hky
  have element := Size.row_add_lt row hkx
  have weights : ((c * height + ky) * width + kx) * m.hwc.channels + m.hwc.channels
      ≤ filter.size := by
    rw [← count, ← Nat.succ_mul]
    exact Nat.mul_le_mul_right _ element
  have pixel := place_add_le hn hiy hix
  rw [sized.products.2.2.1] at pixel
  simp only [Outcome.bind_eq_value_iff, Size.mul_eq_value_iff, Size.add_eq_value_iff]
  refine ⟨_, ⟨by omega, rfl⟩, _, ⟨by omega, rfl⟩, _, ⟨by omega, rfl⟩, _, ⟨by omega, rfl⟩, _,
    ⟨by omega, rfl⟩, _, if_pos weights, _, sized.pixel hn hiy hix, ?_⟩
  rw [Outcome.pure_eq]
  congr 1
  exact addProducts_extract acc pixel weights

/-- The product of an element with the one of a filter for an element of the window is added. -/
lemma addElement_eq_value {height width iy ix ky kx : Nat} (sized : m.WellSized)
    (fits : WellSized ⟨1, ⟨height, width, m.hwc.channels⟩, filter⟩) (hn : n < m.batch)
    (hiy : iy < m.hwc.height) (hix : ix < m.hwc.width) (hc : c < m.hwc.channels)
    (hky : ky < height) (hkx : kx < width) (acc : Float32) :
    (do let start ← Size.mul (← Size.add (← Size.mul ky width) kx) m.hwc.channels
        let weight ← Outcome.orFault filter[← Size.add start c]?
        return acc + (← m.at n iy ix c) * weight : Outcome ε Float32)
      = .value (acc + m.entry n iy ix c *
          filter.getD (place ⟨height, width, m.hwc.channels⟩ 0 ky kx c) 0) := by
  obtain ⟨-, elements, count, small⟩ := fits.products
  simp only [Nat.one_mul] at elements count small
  have element := Size.row_add_lt hky hkx
  have inside := Size.row_add_lt element hc
  rw [count] at inside
  -- the element is read unchecked from a place that is inside
  have weight : filter[(ky * width + kx) * m.hwc.channels + c]?
      = some (filter.getD (place ⟨height, width, m.hwc.channels⟩ 0 ky kx c) 0) := by
    simp only [place, Nat.zero_mul, Nat.zero_add, Array.getD, inside, dite_true,
      Array.getElem?_eq_getElem, Array.getInternal_eq_getElem]
  simp only [Outcome.bind_eq_value_iff, Size.mul_eq_value_iff, Size.add_eq_value_iff,
    Outcome.orFault_eq_value_iff]
  exact ⟨_, ⟨by omega, rfl⟩, _, ⟨by omega, rfl⟩, _, ⟨by omega, rfl⟩, _, ⟨by omega, rfl⟩, _,
    weight, _, sized.at hn hiy hix hc, rfl⟩

/-! ### Results -/

lemma all_of_lengths {k : Nat} (lengths : ∀ b, bias = some b → b.size = k) :
    (bias.all fun b => b.size = k) = true := by
  cases bias with
  | none => rfl
  | some b => simpa using lengths b rfl

/-- A convolution has at every position the activated sum of its products and the bias. -/
lemma conv2d_eq_value (sized : m.WellSized) (bounded : m.hwc.Bounded)
    (near : ¬ w.Overreaches m.hwc) (made : w.Makes m.hwc h v)
    (length : Size.product? 1 [out, w.kernel.1, w.kernel.2, m.hwc.channels] = some filter.size)
    (lengths : ∀ b, bias = some b → b.size = out)
    (room : reserve m.batch ⟨h, v, out⟩ = .value ()) :
    ∃ r, m.conv2d filter out bias w a = .value r ∧ r.Tabulates m.batch ⟨h, v, out⟩
      fun n oy ox oc =>
        a.apply (biased (sum (m.products filter w (w.front m.hwc) n oy ox oc)) bias oc) := by
  -- the filter is laid out like a batch of images, one for each output channel
  have fits : WellSized ⟨out, ⟨w.kernel.1, w.kernel.2, m.hwc.channels⟩, filter⟩ := by
    rw [Size.product?, List.foldlM_cons, Option.bind_eq_bind, Option.bind_eq_some_iff] at length
    obtain ⟨_, first, rest⟩ := length
    obtain ⟨-, rfl⟩ := Size.mul?_eq_some_iff.1 first
    rwa [Nat.one_mul] at rest
  have expected : (Size.product [out, w.kernel.1, w.kernel.2, m.hwc.channels]
      : KernelOutcome Nat) = .value filter.size := Size.product_eq_value_iff.2 length
  simp only [conv2d, expected, decide_true, Outcome.require_true, all_of_lengths lengths,
    Window.place_eq_value made near, Outcome.value_bind]
  refine tabulate_eq_value room fun n oy ox oc hn hy hx hc => ?_
  refine Outcome.bind_eq_value_iff.2 ⟨sum (m.products filter w (w.front m.hwc) n oy ox oc), ?_, ?_⟩
  -- the loop over the window adds the pixels in the order of the list of products
  · rw [sum, products, List.foldl_map, foldl_product]
    refine Window.foldM_eq_value bounded near made hy hx 0 fun acc k hk => ?_
    obtain ⟨hky, hkx, hiy, hix⟩ := Window.of_mem_covered hk
    exact addPixel_eq_value sized fits hn hiy hix hc hky hkx acc
  · rw [addBias_eq_value _ fun b given => (lengths b given) ▸ hc, Outcome.value_bind]
    rfl

/-- A convolution per channel has at every position the activated sum of its products and the
bias. -/
lemma depthwiseConv2d_eq_value (sized : m.WellSized) (bounded : m.hwc.Bounded)
    (near : ¬ w.Overreaches m.hwc) (made : w.Makes m.hwc h v)
    (length : Size.product? 1 [w.kernel.1, w.kernel.2, m.hwc.channels] = some filter.size)
    (lengths : ∀ b, bias = some b → b.size = m.hwc.channels)
    (room : reserve m.batch ⟨h, v, m.hwc.channels⟩ = .value ()) :
    ∃ r, m.depthwiseConv2d filter bias w a = .value r ∧
      r.Tabulates m.batch ⟨h, v, m.hwc.channels⟩ fun n oy ox c =>
        a.apply (biased (sum (m.channelProducts filter w (w.front m.hwc) n oy ox c)) bias c) := by
  have expected : (Size.product [w.kernel.1, w.kernel.2, m.hwc.channels] : KernelOutcome Nat)
      = .value filter.size := Size.product_eq_value_iff.2 length
  simp only [depthwiseConv2d, expected, decide_true, Outcome.require_true, all_of_lengths lengths,
    Window.place_eq_value made near, Outcome.value_bind]
  refine tabulate_eq_value room fun n oy ox c hn hy hx hc => ?_
  refine Outcome.bind_eq_value_iff.2
    ⟨sum (m.channelProducts filter w (w.front m.hwc) n oy ox c), ?_, ?_⟩
  · rw [sum, channelProducts, List.foldl_map]
    refine Window.foldM_eq_value bounded near made hy hx 0 fun acc k hk => ?_
    obtain ⟨hky, hkx, hiy, hix⟩ := Window.of_mem_covered hk
    exact addElement_eq_value sized length hn hiy hix hc hky hkx acc
  · rw [addBias_eq_value _ fun b given => (lengths b given) ▸ hc, Outcome.value_bind]
    rfl

/-- A maximum over windows has at every position the running maximum of what is under the
window. -/
lemma maxPool2d_eq_value (sized : m.WellSized) (bounded : m.hwc.Bounded)
    (near : ¬ w.Overreaches m.hwc) (made : w.Makes m.hwc h v)
    (room : reserve m.batch ⟨h, v, m.hwc.channels⟩ = .value ()) :
    ∃ r, m.maxPool2d w = .value r ∧ r.Tabulates m.batch ⟨h, v, m.hwc.channels⟩ fun n oy ox c =>
      (m.covered w (w.front m.hwc) n oy ox c).foldl Scalar.max noMaximum := by
  simp only [maxPool2d, Window.place_eq_value made near, Outcome.value_bind]
  refine tabulate_eq_value room fun n oy ox c hn hy hx hc => ?_
  rw [covered, List.foldl_map]
  refine Window.foldM_eq_value bounded near made hy hx noMaximum fun best k hk => ?_
  obtain ⟨-, -, hiy, hix⟩ := Window.of_mem_covered hk
  exact Outcome.bind_eq_value_iff.2 ⟨_, sized.at hn hiy hix hc, rfl⟩

/-- On an image on which a window has positions, both convolutions and the maximum have at every
position the sum, or the maximum, over the elements of the window whose coordinates are inside. -/
theorem windows_compute (sized : m.WellSized) (proper : w.degenerate = false)
    (rows : m.hwc.height + w.kernel.1 < Size.bound)
    (columns : m.hwc.width + w.kernel.2 < Size.bound)
    (down : (w.padding.outputLen m.hwc.height w.kernel.1 w.strides.1
      : KernelOutcome (Option Nat)) = .value (some h))
    (across : (w.padding.outputLen m.hwc.width w.kernel.2 w.strides.2
      : KernelOutcome (Option Nat)) = .value (some v)) :
    ∃ pad : Nat × Nat,
      (w.padding.padBefore m.hwc.height w.kernel.1 w.strides.1 : KernelOutcome Nat)
        = .value pad.1 ∧
      (w.padding.padBefore m.hwc.width w.kernel.2 w.strides.2 : KernelOutcome Nat)
        = .value pad.2 ∧
      (∀ filter out bias a,
        Size.product? 1 [out, w.kernel.1, w.kernel.2, m.hwc.channels] = some filter.size →
        (∀ b, bias = some b → b.size = out) → reserve m.batch ⟨h, v, out⟩ = .value () →
        ∃ r, m.conv2d filter out bias w a = .value r ∧ r.Tabulates m.batch ⟨h, v, out⟩
          fun n oy ox oc => a.apply (biased (sum (m.products filter w pad n oy ox oc)) bias oc)) ∧
      (∀ filter bias a,
        Size.product? 1 [w.kernel.1, w.kernel.2, m.hwc.channels] = some filter.size →
        (∀ b, bias = some b → b.size = m.hwc.channels) →
        reserve m.batch ⟨h, v, m.hwc.channels⟩ = .value () →
        ∃ r, m.depthwiseConv2d filter bias w a = .value r ∧
          r.Tabulates m.batch ⟨h, v, m.hwc.channels⟩ fun n oy ox c =>
            a.apply (biased (sum (m.channelProducts filter w pad n oy ox c)) bias c)) ∧
      (reserve m.batch ⟨h, v, m.hwc.channels⟩ = .value () →
        ∃ r, m.maxPool2d w = .value r ∧ r.Tabulates m.batch ⟨h, v, m.hwc.channels⟩
          fun n oy ox c => (m.covered w pad n oy ox c).foldl Scalar.max noMaximum) := by
  obtain ⟨kh, kw, sh, sw⟩ := Window.degenerate_eq_false proper
  have bounded : m.hwc.Bounded := ⟨by omega, by omega⟩
  have nearDown : ¬ w.padding.Overreaches m.hwc.height w.kernel.1 w.strides.1 :=
    w.padding.not_overreaches rows
  have nearAcross : ¬ w.padding.Overreaches m.hwc.width w.kernel.2 w.strides.2 :=
    w.padding.not_overreaches columns
  -- no window reaches beyond the range of sizes, so neither padding nor places overflow
  have near : ¬ w.Overreaches m.hwc := not_or.2 ⟨nearDown, nearAcross⟩
  have made : w.Makes m.hwc h v :=
    ⟨proper,
      (((w.padding.outputLen_ends (P := fun _ => True) ..).of_value down) h).1 rfl,
      (((w.padding.outputLen_ends (P := fun _ => True) ..).of_value across) v).1 rfl⟩
  refine ⟨w.front m.hwc, Padding.padBefore_eq_value _ sh nearDown,
    Padding.padBefore_eq_value _ sw nearAcross, ?_, ?_, ?_⟩
  · intro filter out bias a length lengths room
    exact conv2d_eq_value sized bounded near made length lengths room
  · intro filter bias a length lengths room
    exact depthwiseConv2d_eq_value sized bounded near made length lengths room
  · intro room
    exact maxPool2d_eq_value sized bounded near made room

/-- The windows of three rows and columns on a small image. -/
theorem windows_compute_small :
    let m : FeatureMap := ⟨1, ⟨2, 3, 1⟩, #[1, 2, 3, 4, 5, 6]⟩
    let w : Window := ⟨(3, 3), (1, 2), .same⟩
    let filter : Array Float32 := Array.replicate 9 0.5
    ∃ pad : Nat × Nat,
      (∃ r, m.conv2d filter 1 (some #[1]) w .relu = .value r ∧ r.Tabulates 1 ⟨2, 2, 1⟩
        fun n oy ox oc => Activation.relu.apply
          (biased (sum (m.products filter w pad n oy ox oc)) (some #[1]) oc)) ∧
      (∃ r, m.depthwiseConv2d filter none w .linear = .value r ∧ r.Tabulates 1 ⟨2, 2, 1⟩
        fun n oy ox c => Activation.linear.apply
          (biased (sum (m.channelProducts filter w pad n oy ox c)) none c)) ∧
      ∃ r, m.maxPool2d w = .value r ∧ r.Tabulates 1 ⟨2, 2, 1⟩
        fun n oy ox c => (m.covered w pad n oy ox c).foldl Scalar.max noMaximum := by
  intro m w filter
  obtain ⟨pad, -, -, conv, depthwise, pool⟩ := windows_compute (m := m) (w := w) (h := 2) (v := 2)
    rfl rfl (by decide) (by decide) (by decide) (by decide)
  refine ⟨pad, conv filter 1 (some #[1]) .relu rfl ?_ rfl, ?_, pool rfl⟩
  · rintro b ⟨⟩
    rfl
  · exact depthwise filter none .linear rfl nofun rfl

end FeatureMap

end FlatNet
