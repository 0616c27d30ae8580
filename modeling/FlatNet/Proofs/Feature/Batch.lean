import FlatNet.Proofs.Feature.Kernels

/-!
Batches and their images.

Elements are stored image by image, so the image at `k` of a batch is a part of its elements.
Every operation on feature maps respects this: wherever it gives a value for a batch and for the
image at `k` alone, the second value is the image at `k` of the first one.  The arithmetic of the
elements does not matter for this, only which elements are read.

* `FeatureMap.Slice`: a feature map is the image at `k` of a batch;
* `FeatureMap.tabulate_slice`, `FeatureMap.make_slice`: tables and arrays, from which the rest
  follows;
* `FeatureMap.Slice.conv2d`, `FeatureMap.Slice.depthwiseConv2d`, `FeatureMap.Slice.maxPool2d`,
  `FeatureMap.Slice.resizeBilinear`, `FeatureMap.Slice.activate`, `FeatureMap.Slice.add`,
  `FeatureMap.Slice.batchNorm`, `FeatureMap.Slice.concat`: the operations;
* `FeatureMap.ofTensor_slice`, `FeatureMap.Slice.toTensor`: tensors.
-/

namespace FlatNet

open Outcome (Ends Meets)

/-- The number of elements of an image. -/
def Hwc.volume (s : Hwc) : Nat := s.height * s.width * s.channels

namespace FeatureMap

/-- The batch `m` of `images` images has the image `s` at `k`. -/
structure Slice (images k : Nat) (m s : FeatureMap) : Prop where
  /-- There are so many images. -/
  batch : m.batch = images
  /-- The image is one of them. -/
  inside : k < images
  /-- It is a batch of its own. -/
  single : s.batch = 1
  /-- It has the shape of all images. -/
  hwc : s.hwc = m.hwc
  /-- All images of the batch are there. -/
  whole : m.data.size = images * m.hwc.volume
  /-- So is the single one. -/
  own : s.data.size = m.hwc.volume
  /-- Its elements are those of the image in the batch. -/
  element : ∀ i < m.hwc.volume, m.data[k * m.hwc.volume + i]? = s.data[i]?

/-! ### Elements -/

lemma index_eq_value {ε : Type} {m : FeatureMap} {n y x c i : Nat}
    (h : (m.index n y x c : Outcome ε Nat) = .value i) :
    i = ((n * m.hwc.height + y) * m.hwc.width + x) * m.hwc.channels + c := by
  simp only [index, Outcome.bind_eq_value_iff, Size.mul_eq_value_iff, Size.add_eq_value_iff] at h
  obtain ⟨_, ⟨-, rfl⟩, _, ⟨-, rfl⟩, _, ⟨-, rfl⟩, _, ⟨-, rfl⟩, _, ⟨-, rfl⟩, -, rfl⟩ := h
  rfl

section Elements

variable {ε ε' : Type} {images k : Nat} {m s : FeatureMap}

/-- A place in the image at `k` is a place in the first image and a whole number of images. -/
lemma Slice.index (h : Slice images k m s) (y x c : Nat) :
    Meets (fun i j => i = k * m.hwc.volume + j)
      (m.index k y x c : Outcome ε Nat) (s.index 0 y x c : Outcome ε' Nat) := by
  intro i j hi hj
  rw [index_eq_value hi, index_eq_value hj, h.hwc, Hwc.volume]
  ring

/-- An element of the image at `k` is that of the single image. -/
lemma Slice.at (h : Slice images k m s) (y x c : Nat) :
    Meets Eq (m.at k y x c : Outcome ε Float32) (s.at 0 y x c : Outcome ε' Float32) := by
  refine (h.index y x c).bind ?_
  rintro _ j rfl a b found own
  rw [Outcome.orFault_eq_value_iff] at found own
  obtain ⟨inside, -⟩ := Array.getElem?_eq_some_iff.1 own
  rw [h.element j (h.own ▸ inside), own] at found
  exact (Option.some.inj found).symm

/-- A part of the image at `k` is that of the single image. -/
lemma Slice.part (h : Slice images k m s) (start count : Nat) :
    Meets Eq (part m.data (k * m.hwc.volume + start) count : Outcome ε (Array Float32))
      (part s.data start count : Outcome ε' (Array Float32)) := by
  unfold FeatureMap.part
  split
  · split
    · rename_i inside
      have outer : min (k * m.hwc.volume + start + count) m.data.size
          = k * m.hwc.volume + start + count := Nat.min_eq_left (by assumption)
      have inner : min (start + count) s.data.size = start + count := Nat.min_eq_left inside
      refine Meets.of_values (Array.ext_getElem? fun i => ?_)
      rw [Array.getElem?_extract, Array.getElem?_extract, outer, inner, Nat.add_sub_cancel_left,
        Nat.add_sub_cancel_left]
      split
      · rename_i hi
        rw [Nat.add_assoc, h.element _ (h.own ▸ by omega)]
      · rfl
    · exact nofun
  · exact nofun

/-- A pixel of the image at `k` is that of the single image. -/
lemma Slice.pixel (h : Slice images k m s) (y x : Nat) :
    Meets Eq (m.pixel k y x : Outcome ε (Array Float32))
      (s.pixel 0 y x : Outcome ε' (Array Float32)) := by
  refine (h.index y x 0).bind ?_
  rintro _ j rfl
  rw [h.hwc]
  exact h.part j m.hwc.channels

end Elements

/-! ### Tables -/

/-- The element at a place of the image at `k` is that of the first image, in the image `k`. -/
lemma position_image (hwc : Hwc) (k : Nat) {i : Nat} (hi : i < hwc.volume) :
    position hwc (k * hwc.volume + i) = (k, (position hwc i).2) ∧ (position hwc i).1 = 0 := by
  obtain ⟨height, width, channels⟩ := hwc
  change i < height * width * channels at hi
  have c : 0 < channels := Nat.pos_of_ne_zero (by rintro rfl; simp at hi)
  have w : 0 < width := Nat.pos_of_ne_zero (by rintro rfl; simp at hi)
  have row : i / channels / width < height := by
    rw [Nat.div_div_eq_div_mul, Nat.mul_comm channels]
    exact Nat.div_lt_of_lt_mul (by rwa [Nat.mul_comm, ← Nat.mul_assoc])
  have h : 0 < height := Nat.zero_lt_of_lt row
  -- whole images lie before this one, and each division takes them off in turn
  have pixels : (k * (height * width * channels) + i) / channels
      = width * (height * k) + i / channels := by
    rw [← Nat.mul_add_div c]
    congr 2
    ring
  have rows : (width * (height * k) + i / channels) / width
      = height * k + i / channels / width := Nat.mul_add_div w _ _
  have depth : (k * (height * width * channels) + i) % channels = i % channels := by
    rw [← Nat.mul_assoc, Nat.mul_comm _ channels, Nat.mul_add_mod]
  constructor
  · simp only [position, Hwc.volume, pixels, rows, depth, Nat.mul_add_mod, Nat.mul_add_div h,
      Nat.div_eq_of_lt row]
    rfl
  · exact Nat.div_eq_of_lt row

/-- Arrays make a batch and an image of it if the elements are those of the image. -/
lemma make_slice {images k : Nat} {hwc : Hwc} {data data' : Array Float32} (inside : k < images)
    (element : ∀ i < hwc.volume, data[k * hwc.volume + i]? = data'[i]?) :
    Meets (Slice images k) (make images hwc data) (make 1 hwc data') := by
  intro m s hm hs
  obtain ⟨rfl, whole⟩ := (make_ends _ _ _).of_value hm
  obtain ⟨rfl, own⟩ := (make_ends _ _ _).of_value hs
  refine ⟨rfl, inside, rfl, rfl, ?_, ?_, element⟩
  · rw [← elementCount?_eq whole, Hwc.volume]
    simp only [Nat.mul_assoc]
  · rw [← elementCount?_eq own, Hwc.volume, Nat.one_mul]

/-- Tables make a batch and an image of it if the functions agree at the image. -/
lemma tabulate_slice {images k : Nat} {hwc : Hwc}
    {f g : Nat → Nat → Nat → Nat → KernelOutcome Float32} (inside : k < images)
    (same : ∀ y x c, Meets Eq (f k y x c) (g 0 y x c)) :
    Meets (Slice images k) (tabulate images hwc f) (tabulate 1 hwc g) := by
  refine Meets.anything.bind fun _ _ _ => (Meets.mapM_entries (k * hwc.volume) hwc.volume
    fun i hi => ?_).bind fun xs ys elements => make_slice inside ?_
  · have count (n : Nat) : n * hwc.height * hwc.width * hwc.channels = n * hwc.volume := by
      simp only [Hwc.volume, Nat.mul_assoc]
    have place : k * hwc.volume + i < images * hwc.volume := Size.row_add_lt inside hi
    refine ⟨k * hwc.volume + i, i, ?_, ?_, ?_⟩
    · rw [count, List.getElem?_range place]
    · rw [count, Nat.one_mul, List.getElem?_range hi]
    · obtain ⟨there, first⟩ := position_image hwc k hi
      rw [there, ← Prod.mk.eta (p := position hwc i), first]
      exact same _ _ _
  · simpa only [List.getElem?_toArray] using elements

/-! ### Rows -/

lemma toList_foldl_append (start : Array Float32) (parts : List (Array Float32)) :
    (parts.foldl (· ++ ·) start).toList = start.toList ++ parts.flatMap Array.toList := by
  induction parts generalizing start with
  | nil => simp
  | cons part parts ih => simp [ih]

/-- Rows of arrays one after the other. -/
lemma toList_rows (rows : List (List (Array Float32))) :
    (rows.flatten.foldl (· ++ ·) #[]).toList
      = rows.flatMap fun row => row.flatMap Array.toList := by
  rw [toList_foldl_append, List.nil_append, List.flatMap_def, List.flatMap_def, List.map_flatten,
    List.flatten_flatten, List.map_map]
  rfl

/-- An entry of rows of one length, one after the other. -/
lemma getElem?_flatMap_rows {α β : Type} {f : α → List β} {n e : Nat} (he : e < n)
    {rows : List α} (length : ∀ row ∈ rows, (f row).length = n) (p : Nat) :
    (rows.flatMap f)[p * n + e]? = rows[p]?.bind fun row => (f row)[e]? := by
  induction rows generalizing p with
  | nil => simp
  | cons row rows ih =>
    obtain ⟨first, later⟩ := List.forall_mem_cons.1 length
    rw [List.flatMap_cons]
    cases p with
    | zero =>
      rw [Nat.zero_mul, Nat.zero_add, List.getElem?_append_left (first ▸ he)]
      rfl
    | succ p =>
      have skip : (p + 1) * n + e = (f row).length + (p * n + e) := by
        rw [first]
        ring
      rw [skip, List.getElem?_append_right (Nat.le_add_right _ _), Nat.add_sub_cancel_left,
        ih later p]
      rfl

/-- Entries of rows of one length, one after the other, are those of the same rows further
ahead. -/
lemma getElem?_flatMap_of_rows {α β : Type} {f : α → List β} {n start count i : Nat}
    {rows rows' : List α} (length : ∀ row ∈ rows, (f row).length = n)
    (length' : ∀ row ∈ rows', (f row).length = n)
    (entries : ∀ p < count, rows[start + p]? = rows'[p]?) (hi : i < count * n) :
    (rows.flatMap f)[start * n + i]? = (rows'.flatMap f)[i]? := by
  have pos : 0 < n := Nat.pos_of_ne_zero (by rintro rfl; simp at hi)
  have rest : i % n < n := Nat.mod_lt i pos
  have row : i / n < count := Nat.div_lt_of_lt_mul (by rwa [Nat.mul_comm])
  have place : start * n + i = (start + i / n) * n + i % n := by
    rw [Nat.add_mul, Nat.add_assoc, Nat.div_add_mod']
  calc (rows.flatMap f)[start * n + i]?
      = rows[start + i / n]?.bind fun row => (f row)[i % n]? := by
        rw [place, getElem?_flatMap_rows rest length]
    _ = rows'[i / n]?.bind fun row => (f row)[i % n]? := by rw [entries _ row]
    _ = (rows'.flatMap f)[i]? := by rw [← getElem?_flatMap_rows rest length', Nat.div_add_mod']

/-- The numbers of a pixel of feature maps side by side. -/
lemma length_row {ms : List FeatureMap} {row : List (Array Float32)}
    (h : List.Forall₂ (fun (m : FeatureMap) (xs : Array Float32) => xs.size = m.hwc.channels) ms
      row) :
    (row.flatMap Array.toList).length = (ms.map (·.hwc.channels)).sum := by
  induction h with
  | nil => rfl
  | cons size _ ih =>
    rw [List.flatMap_cons, List.length_append, Array.length_toList, size, ih, List.map_cons,
      List.sum_cons]

/-- Every pixel of feature maps side by side has so many numbers. -/
lemma length_of_rows {ε : Type} {ms : List FeatureMap} {places : List Nat}
    {rows : List (List (Array Float32))}
    (h : (places.mapM fun p => ms.mapM fun m => do
      FeatureMap.part m.data (← Size.mul p m.hwc.channels) m.hwc.channels :
        Outcome ε (List (List (Array Float32)))) = .value rows) :
    ∀ row ∈ rows, (row.flatMap Array.toList).length = (ms.map (·.hwc.channels)).sum := by
  have pointwise := (rows_ends (P := fun _ => True) ms places).of_value h
  intro row hrow
  obtain ⟨_, -, sizes⟩ := exists_mem_of_forall₂ pointwise.flip hrow
  exact length_row sizes

/-- Products are exact. -/
lemma mul_meets {ε ε' : Type} (a b c d : Nat) :
    Meets (fun p q => p = a * b ∧ q = c * d) (Size.mul a b : Outcome ε Nat)
      (Size.mul c d : Outcome ε' Nat) := by
  intro p q hp hq
  rw [Size.mul_eq_value_iff] at hp hq
  exact ⟨hp.2.symm, hq.2.symm⟩

/-! ### Windows -/

/-- Folds over a window meet if their steps do. -/
lemma foldM_meets {ε α : Type} (w : Window) (input : Hwc) (pad : Nat × Nat) (oy ox : Nat)
    (start : α) {step step' : α → Nat × Nat → Nat × Nat → Outcome ε α}
    (same : ∀ acc k i, Meets Eq (step acc k i) (step' acc k i)) :
    Meets Eq (w.foldM input pad oy ox start step) (w.foldM input pad oy ox start step') := by
  refine Meets.foldlM_same rfl ?_
  rintro acc _ ky rfl
  -- the pixels under the window depend on its position only
  refine Meets.bind_same fun row => ?_
  cases row with
  | none => exact .refl _
  | some iy =>
    refine Meets.foldlM_same rfl ?_
    rintro acc _ kx rfl
    refine Meets.bind_same fun column => ?_
    cases column with
    | none => exact .refl _
    | some ix => exact same acc (ky, kx) (iy, ix)

namespace Slice

variable {images k : Nat} {m s : FeatureMap}

lemma conv2d (h : Slice images k m s) (filter : Array Float32) (outChannels : Nat)
    (bias : Option (Array Float32)) (w : Window) (a : Activation) :
    Meets (Slice images k) (m.conv2d filter outChannels bias w a)
      (s.conv2d filter outChannels bias w a) := by
  unfold FeatureMap.conv2d
  rw [h.hwc, h.batch, h.single]
  refine Meets.bind_same fun expected => Meets.bind_same fun _ => Meets.bind_same fun _ =>
    Meets.bind_same fun placed => tabulate_slice h.inside fun y x c => ?_
  refine (foldM_meets _ _ _ _ _ _ fun acc _ i => ?_).bind_eq fun sum => .refl _
  -- the weights do not depend on the image
  refine Meets.bind_same fun _ => Meets.bind_same fun _ => Meets.bind_same fun _ =>
    Meets.bind_same fun _ => Meets.bind_same fun _ => Meets.bind_same fun weights => ?_
  exact (h.pixel i.1 i.2).bind_eq fun values => .refl _

lemma depthwiseConv2d (h : Slice images k m s) (filter : Array Float32)
    (bias : Option (Array Float32)) (w : Window) (a : Activation) :
    Meets (Slice images k) (m.depthwiseConv2d filter bias w a)
      (s.depthwiseConv2d filter bias w a) := by
  unfold FeatureMap.depthwiseConv2d
  rw [h.hwc, h.batch, h.single]
  refine Meets.bind_same fun expected => Meets.bind_same fun _ => Meets.bind_same fun _ =>
    Meets.bind_same fun placed => tabulate_slice h.inside fun y x c => ?_
  refine (foldM_meets _ _ _ _ _ _ fun acc _ i => ?_).bind_eq fun sum => .refl _
  refine Meets.bind_same fun _ => Meets.bind_same fun _ => Meets.bind_same fun _ =>
    Meets.bind_same fun _ => Meets.bind_same fun weight => ?_
  exact (h.at i.1 i.2 c).bind_eq fun value => .refl _

lemma maxPool2d (h : Slice images k m s) (w : Window) :
    Meets (Slice images k) (m.maxPool2d w) (s.maxPool2d w) := by
  unfold FeatureMap.maxPool2d
  rw [h.hwc, h.batch, h.single]
  refine Meets.bind_same fun placed => tabulate_slice h.inside fun y x c => ?_
  refine foldM_meets _ _ _ _ _ _ fun best _ i => ?_
  exact (h.at i.1 i.2 c).bind_eq fun value => .refl _

lemma resizeBilinear (h : Slice images k m s) (size : Nat × Nat) (sampling : Sampling) :
    Meets (Slice images k) (m.resizeBilinear size sampling) (s.resizeBilinear size sampling) := by
  unfold FeatureMap.resizeBilinear
  rw [h.hwc, h.batch, h.single]
  refine Meets.bind_same fun _ => Meets.bind_same fun _ => Meets.anything.bind fun _ _ _ => ?_
  -- the taps are those of the height and width, which are the same
  refine Meets.bind_same fun ys => Meets.bind_same fun xs => tabulate_slice h.inside fun y x c => ?_
  refine Meets.bind_same fun ty => Meets.bind_same fun tx => ?_
  refine (h.at ty.lower tx.lower c).bind_eq fun topLeft => ?_
  refine (h.at ty.lower tx.upper c).bind_eq fun topRight => ?_
  refine (h.at ty.upper tx.lower c).bind_eq fun bottomLeft => ?_
  exact (h.at ty.upper tx.upper c).bind_eq fun bottomRight => .refl _

/-! ### Positions kept -/

lemma activate (h : Slice images k m s) (a : Activation) :
    Slice images k (m.activate a) (s.activate a) where
  batch := h.batch
  inside := h.inside
  single := h.single
  hwc := h.hwc
  whole := Array.size_map.trans h.whole
  own := Array.size_map.trans h.own
  element i hi := by
    rw [FeatureMap.activate, FeatureMap.activate, Array.getElem?_map, Array.getElem?_map]
    exact congrArg (Option.map _) (h.element i hi)

lemma add {m' s' : FeatureMap} (h : Slice images k m s) (h' : Slice images k m' s')
    (a : Activation) : Meets (Slice images k) (m.add m' a) (s.add s' a) := by
  refine (Meets.values_left _ _).bind fun _ _ same => ?_
  rw [Outcome.require_eq_value_iff, Bool.and_eq_true, decide_eq_true_eq, decide_eq_true_eq] at same
  rw [h.hwc, h.batch, h.single]
  refine make_slice h.inside fun i hi => ?_
  have right := h'.element i (same.2 ▸ hi)
  rw [← same.2] at right
  rw [Array.getElem?_zipWith, Array.getElem?_zipWith, h.element i hi, right]

lemma batchNorm (h : Slice images k m s) (p : Norm) (epsilon : Float32) :
    Meets (Slice images k) (m.batchNorm p epsilon) (s.batchNorm p epsilon) := by
  unfold FeatureMap.batchNorm
  rw [h.hwc, h.batch, h.single]
  refine Meets.bind_same fun _ => Meets.bind_same fun _ => Meets.bind_same fun _ =>
    Meets.bind_same fun _ => Meets.bind_same fun scales => ?_
  refine (Meets.mapM_entries (k * m.hwc.volume) m.hwc.volume fun i hi => ?_).bind
    fun xs ys elements => make_slice h.inside ?_
  · obtain ⟨x, own⟩ : ∃ x, s.data[i]? = some x :=
      ⟨_, Array.getElem?_eq_getElem (h.own ▸ hi)⟩
    refine ⟨(x, k * m.hwc.volume + i), (x, i), ?_, ?_, ?_⟩
    · rw [List.getElem?_zipIdx, Array.getElem?_toList, h.element i hi, own]
      simp
    · rw [List.getElem?_zipIdx, Array.getElem?_toList, own]
      simp
    · -- the channel of an element is the same in every image
      have channel : (k * m.hwc.volume + i) % m.hwc.channels = i % m.hwc.channels := by
        rw [Hwc.volume, ← Nat.mul_assoc, Nat.mul_comm _ m.hwc.channels, Nat.mul_add_mod]
      simp only [channel]
      exact .refl _
  · simpa only [List.getElem?_toArray] using elements

/-! ### Concatenations -/

/-- A pixel of the image at `k` is that of the single images, one after the other. -/
lemma row_meets {ε ε' : Type} {height width p : Nat} {ms ss : List FeatureMap}
    (h : List.Forall₂ (fun m s => (m.hwc.height = height ∧ m.hwc.width = width) ∧
      Slice images k m s) ms ss) :
    Meets Eq
      (ms.mapM fun m => do
        FeatureMap.part m.data (← Size.mul (k * (height * width) + p) m.hwc.channels)
          m.hwc.channels : Outcome ε (List (Array Float32)))
      (ss.mapM fun s => do
        FeatureMap.part s.data (← Size.mul p s.hwc.channels) s.hwc.channels :
          Outcome ε' (List (Array Float32))) := by
  refine (Meets.mapM h (R := Eq) ?_).mono fun _ _ same => List.forall₂_eq_eq_eq ▸ same
  rintro m s ⟨⟨rfl, rfl⟩, slice⟩
  rw [slice.hwc]
  refine (mul_meets _ _ _ _).bind ?_
  rintro _ _ ⟨rfl, rfl⟩
  -- the rows of the earlier images lie before the row
  have place : (k * (m.hwc.height * m.hwc.width) + p) * m.hwc.channels
      = k * m.hwc.volume + p * m.hwc.channels := by
    rw [Hwc.volume]
    ring
  rw [place]
  exact slice.part _ _

lemma concat {ms ss : List FeatureMap} (h : List.Forall₂ (Slice images k) ms ss) :
    Meets (Slice images k) (FeatureMap.concat ms) (FeatureMap.concat ss) := by
  cases h with
  | nil => exact nofun
  | @cons m s ms ss here later =>
    have slices : List.Forall₂ (Slice images k) (m :: ms) (s :: ss) := .cons here later
    refine (Meets.values_left _ _).bind fun _ _ same => ?_
    simp only [Outcome.require_eq_value_iff, List.all_eq_true, Bool.and_eq_true,
      decide_eq_true_eq, and_assoc] at same
    have shaped := (List.forall₂_and_left _ _).2 ⟨fun m hm => (same m hm).2, slices⟩
    -- a slice has the channels of its map, so both sums are one
    have channels : (s :: ss).map (·.hwc.channels) = (m :: ms).map (·.hwc.channels) := by
      rw [← List.forall₂_eq_eq_eq, List.forall₂_map_left_iff, List.forall₂_map_right_iff]
      exact slices.flip.imp fun s m slice => congrArg Hwc.channels slice.hwc
    rw [channels, here.hwc, here.batch, here.single]
    refine (Meets.refl _).with_values.bind ?_
    rintro total _ ⟨sum, -, rfl⟩
    obtain ⟨-, rfl⟩ := Size.sum_eq_value_iff.1 sum
    refine (mul_meets _ _ _ _).bind ?_
    rintro _ _ ⟨rfl, rfl⟩
    refine (mul_meets _ _ _ _).bind ?_
    rintro _ _ ⟨rfl, rfl⟩
    refine Meets.anything.bind fun _ _ _ => ?_
    -- row `p` of the slice is row `p` of its image within the batch
    refine (Meets.mapM_entries (k * (m.hwc.height * m.hwc.width))
      (m.hwc.height * m.hwc.width) fun p hp => ?_).with_values.bind ?_
    · refine ⟨k * (m.hwc.height * m.hwc.width) + p, p, ?_, ?_, row_meets shaped⟩
      · rw [Nat.mul_assoc, List.getElem?_range (Size.row_add_lt here.inside hp)]
      · rw [Nat.one_mul, List.getElem?_range hp]
    · rintro rows rows' ⟨read, read', entries⟩
      refine make_slice here.inside fun i hi => ?_
      have length := length_of_rows read
      have length' := length_of_rows read'
      rw [channels] at length'
      rw [← Array.getElem?_toList, ← Array.getElem?_toList, toList_rows, toList_rows]
      have place : k * Hwc.volume ⟨m.hwc.height, m.hwc.width, ((m :: ms).map (·.hwc.channels)).sum⟩
          = k * (m.hwc.height * m.hwc.width) * ((m :: ms).map (·.hwc.channels)).sum :=
        (Nat.mul_assoc ..).symm
      rw [place]
      exact getElem?_flatMap_of_rows length length' entries hi

end Slice

/-! ### Tensors -/

lemma volume_dims (s : Hwc) : Shape.volume [s.height, s.width, s.channels] = s.volume := by
  simp [Shape.volume, Hwc.volume]

lemma Slice.toList {images k : Nat} {m s : FeatureMap} (h : Slice images k m s) :
    s.data.toList = (m.data.toList.drop (k * m.hwc.volume)).take m.hwc.volume := by
  refine List.ext_getElem? fun i => ?_
  rw [List.getElem?_take, List.getElem?_drop, Array.getElem?_toList, Array.getElem?_toList]
  split
  · rename_i hi
    exact (h.element i hi).symm
  · rename_i outside
    exact Array.getElem?_eq_none (by rw [h.own]; omega)

/-- The tensor of an image is the image of the tensor. -/
lemma Slice.toTensor {images k : Nat} {m s : FeatureMap} (h : Slice images k m s) :
    Meets (Tensor.ImageAt images k) m.toTensor s.toTensor := by
  intro t p ht hp
  rw [FeatureMap.toTensor, Outcome.mapError_eq_value_iff, Outcome.ofExcept_eq_value_iff,
    Tensor.ofSingles, Tensor.ofBytes_eq_ok_iff] at ht hp
  obtain ⟨rfl, -⟩ := ht
  obtain ⟨rfl, -⟩ := hp
  have size : Shape.volume [m.hwc.height, m.hwc.width, m.hwc.channels] * DType.f32.width
      = 4 * m.hwc.volume := by
    rw [volume_dims, Nat.mul_comm]
    rfl
  refine ⟨[m.hwc.height, m.hwc.width, m.hwc.channels], by rw [h.batch], ?_, ?_⟩
  · rw [size, Bytes.length_ofSingles, List.length_map, Array.length_toList, h.whole]
    ring
  · rw [Tensor.image_eq rfl, size, h.single, h.hwc, h.toList, List.map_take, List.map_drop,
      ← Bytes.ofSingles_take, ← Bytes.ofSingles_drop, Nat.mul_left_comm]

end FeatureMap

end FlatNet
