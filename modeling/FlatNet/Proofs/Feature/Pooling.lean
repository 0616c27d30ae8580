import FlatNet.Proofs.Feature.Windows
import FlatNet.Proofs.Scalar

/-!
Maxima over windows.

Every window has an element over the input, down and across, so a maximum over it is formed of at
least one element.  It starts with negative infinity, which any number replaces; so what is found
is one of the elements, and negative infinity only if that is among them.

* `Window.covered_ne_nil`: a window has an element over the input;
* `maxPool2d_element_mem`: a maximum is one of the elements of its image and channel;
* `windows_cover`: this, and the geometry along an axis that it rests on.
-/

namespace FlatNet

/-! ### Windows -/

/-- What lies under the first elements of a window behind the padding is listed. -/
lemma Padding.Covers.kept_ne_nil {p : Padding} {input kernel stride out o : Nat}
    (h : p.Covers input kernel stride out) (side : kernel ≠ 0) (step : stride ≠ 0) (ho : o < out) :
    Window.kept o kernel stride (p.front input kernel stride) input ≠ [] := by
  obtain ⟨k, hk, i, hi, place⟩ := h.start_inside side step ho
  refine List.ne_nil_of_mem (Window.mem_kept_iff.2 ⟨hk, ?_⟩)
  rw [Window.coordinate]
  omega

/-- A window has an element over the image at each of its positions. -/
lemma Window.covered_ne_nil {w : Window} {input : Hwc} {h v oy ox : Nat}
    (made : w.Makes input h v) (hy : oy < h) (hx : ox < v) :
    w.covered input (w.front input) oy ox ≠ [] := by
  obtain ⟨kh, kw, sh, sw⟩ := degenerate_eq_false made.proper
  obtain ⟨ky, row⟩ := List.exists_mem_of_ne_nil _ (made.rows.kept_ne_nil kh sh hy)
  obtain ⟨kx, column⟩ := List.exists_mem_of_ne_nil _ (made.columns.kept_ne_nil kw sw hx)
  exact List.ne_nil_of_mem (List.mem_product.2 ⟨row, column⟩)

namespace FeatureMap

variable {m r : FeatureMap} {w : Window} {n y x c : Nat}

/-! ### Maxima -/

lemma WellSized.entry_mem (h : m.WellSized) (hn : n < m.batch) (hy : y < m.hwc.height)
    (hx : x < m.hwc.width) (hc : c < m.hwc.channels) : m.entry n y x c ∈ m.data := by
  have inside := place_lt hn hy hx hc
  rw [h.products.2.2.1] at inside
  rw [entry, Array.getD, dif_pos inside]
  exact Array.getElem_mem inside

/-- The running maximum of numbers is one of them, if there is one and none is NaN. -/
lemma foldl_max_noMaximum_mem {xs : List Float32} (some : xs ≠ [])
    (real : ∀ x ∈ xs, x.isNaN = false) : xs.foldl Scalar.max noMaximum ∈ xs := by
  obtain ⟨x, rest, rfl⟩ := List.exists_cons_of_ne_nil some
  rw [List.foldl_cons, noMaximum, Scalar.max_negInfinity (real x (List.mem_cons_self ..))]
  exact Scalar.foldl_max_mem x rest

/-- The sides of a feature map with an image that is not empty are sizes. -/
lemma WellSized.bounded (h : m.WellSized) (images : m.batch ≠ 0) (height : m.hwc.height ≠ 0) :
    m.hwc.Bounded := by
  obtain ⟨rows, pixels, -, -⟩ := h.products
  refine ⟨lt_of_le_of_lt ?_ rows, lt_of_le_of_lt ?_ pixels⟩
  · exact Nat.le_mul_of_pos_left _ (Nat.pos_of_ne_zero images)
  · exact Nat.le_mul_of_pos_left _ (Nat.mul_pos (Nat.pos_of_ne_zero images)
      (Nat.pos_of_ne_zero height))

/-- The elements under a window are elements of the image. -/
lemma exists_of_mem_covered {pad : Nat × Nat} {oy ox : Nat} {e : Float32}
    (he : e ∈ m.covered w pad n oy ox c) :
    ∃ iy < m.hwc.height, ∃ ix < m.hwc.width, e = m.entry n iy ix c := by
  obtain ⟨k, hk, rfl⟩ := List.mem_map.1 he
  obtain ⟨-, -, hiy, hix⟩ := Window.of_mem_covered hk
  exact ⟨_, hiy, _, hix, rfl⟩

lemma covered_ne_nil {h v oy ox : Nat} (made : w.Makes m.hwc h v) (hy : oy < h) (hx : ox < v) :
    m.covered w (w.front m.hwc) n oy ox c ≠ [] := fun none =>
  Window.covered_ne_nil made hy hx (List.map_eq_nil_iff.1 none)

/-- Every element of a maximum over the windows of an image without NaN is one of the elements of
the same image and channel. -/
lemma maxPool2d_element_mem (sized : m.WellSized) (real : ∀ x ∈ m.data, x.isNaN = false)
    (h : m.maxPool2d w = .value r) {oy ox : Nat} (hn : n < r.batch) (hy : oy < r.hwc.height)
    (hx : ox < r.hwc.width) (hc : c < r.hwc.channels) :
    ∃ x, (r.at n oy ox c : KernelOutcome Float32) = .value x ∧
      ∃ iy < m.hwc.height, ∃ ix < m.hwc.width,
        (m.at n iy ix c : KernelOutcome Float32) = .value x := by
  obtain ⟨rows, columns, made, shaped, -⟩ := (m.maxPool2d_ends w).of_value h
  rw [shaped.batch] at hn
  rw [shaped.hwc] at hy hx hc
  obtain ⟨kh, -, sh, -⟩ := Window.degenerate_eq_false made.proper
  have bounded := sized.bounded (Nat.ne_zero_of_lt hn)
    (Nat.ne_zero_of_lt (made.rows.mul_lt kh sh hy))
  -- a pool that gave a result has placed its windows
  have near : ¬ w.Overreaches m.hwc := fun far => by
    rw [maxPool2d_eq_fault bounded made.proper far] at h
    cases h
  have room : reserve m.batch ⟨rows, columns, m.hwc.channels⟩ = .value () := by
    rw [maxPool2d, Window.place_eq_value made near, Outcome.value_bind] at h
    exact room_of_tabulate h
  obtain ⟨r', result, table⟩ := maxPool2d_eq_value sized bounded near made room
  obtain rfl := Outcome.value.inj (h.symm.trans result)
  -- the maximum starts from the least number, which the first covered element replaces
  have found : _ ∈ m.covered w (w.front m.hwc) n oy ox c :=
    foldl_max_noMaximum_mem (covered_ne_nil made hy hx) fun x hx => by
      obtain ⟨iy, hiy, ix, hix, rfl⟩ := exists_of_mem_covered hx
      exact real _ (sized.entry_mem hn hiy hix hc)
  obtain ⟨iy, hiy, ix, hix, same⟩ := exists_of_mem_covered found
  refine ⟨_, table.element n oy ox c hn hy hx hc, iy, hiy, ix, hix, ?_⟩
  rw [same]
  exact sized.at hn hiy hix hc

/-- The windows at the positions of an axis lie over it as they should, for both paddings; so a
maximum over windows is an element of the same image and channel. -/
theorem windows_cover :
    (∀ (p : Padding) (input kernel stride : Nat), 1 ≤ input → 1 ≤ kernel → 1 ≤ stride →
      input + kernel < Size.bound →
      ∃ positions, (p.outputLen input kernel stride : KernelOutcome (Option Nat))
          = .value positions ∧
        ∀ out, positions = some out →
          ∃ before, (p.padBefore input kernel stride : KernelOutcome Nat) = .value before ∧
            p.Spans input kernel stride out before) ∧
    ∀ (m r : FeatureMap) (w : Window), m.WellSized → (∀ x ∈ m.data, x.isNaN = false) →
      m.maxPool2d w = .value r →
      ∀ n oy ox c, n < r.batch → oy < r.hwc.height → ox < r.hwc.width → c < r.hwc.channels →
        ∃ x, (r.at n oy ox c : KernelOutcome Float32) = .value x ∧
          ∃ iy < m.hwc.height, ∃ ix < m.hwc.width,
            (m.at n iy ix c : KernelOutcome Float32) = .value x := by
  refine ⟨fun p input kernel stride full side step small => ?_, ?_⟩
  · rw [Nat.one_le_iff_ne_zero] at full side step
    obtain ⟨positions, computed, covers⟩ :=
      p.exists_outputLen (ε := KernelError) step (lt_of_le_of_lt (Nat.le_add_right _ _) small) side
    refine ⟨positions, computed, fun out some => ⟨p.front input kernel stride, ?_, ?_⟩⟩
    · exact p.padBefore_eq_value step (p.not_overreaches small)
    · exact (covers out some).spans full side step small
  · intro m r w sized real h n oy ox c hn hy hx hc
    exact maxPool2d_element_mem sized real h hn hy hx hc

/-- Windows of two elements at every second one of five, and the maxima under windows of two rows
and columns. -/
theorem windows_cover_small :
    (∃ before, (Padding.same.padBefore 5 2 2 : KernelOutcome Nat) = .value before ∧
      Padding.same.Spans 5 2 2 3 before) ∧
    let m : FeatureMap := ⟨1, ⟨2, 2, 1⟩, #[1, -2, 3, 4]⟩
    ∃ r, m.maxPool2d ⟨(2, 2), (1, 1), .same⟩ = .value r ∧ r.Shaped 1 ⟨2, 2, 1⟩ ∧
      ∃ x, (r.at 0 1 0 0 : KernelOutcome Float32) = .value x ∧
        ∃ iy < 2, ∃ ix < 2, (m.at 0 iy ix 0 : KernelOutcome Float32) = .value x := by
  obtain ⟨axis, maxima⟩ := windows_cover
  constructor
  · obtain ⟨positions, computed, spans⟩ := axis .same 5 2 2 (by decide) (by decide) (by decide)
      (by decide)
    exact spans 3 (Outcome.value.inj (computed.symm.trans (by decide)))
  · intro m
    have sized : m.WellSized := rfl
    have all : Padding.same.Covers 2 2 1 2 := show 2 = (2 + 1 - 1) / 1 by decide
    have made : Window.Makes ⟨(2, 2), (1, 1), .same⟩ m.hwc 2 2 := ⟨rfl, all, all⟩
    have near : ¬ Window.Overreaches ⟨(2, 2), (1, 1), .same⟩ m.hwc :=
      not_or.2 ⟨Padding.not_overreaches _ (by decide), Padding.not_overreaches _ (by decide)⟩
    obtain ⟨r, result, table⟩ :=
      maxPool2d_eq_value sized (sized.bounded (by decide) (by decide)) near made rfl
    refine ⟨r, result, table.shaped, ?_⟩
    obtain ⟨batch, hwc⟩ := table.shaped
    refine maxima m r _ sized (by decide +kernel) result 0 1 0 0 ?_ ?_ ?_ ?_ <;>
      simp [batch, hwc, m]

end FeatureMap

end FlatNet
