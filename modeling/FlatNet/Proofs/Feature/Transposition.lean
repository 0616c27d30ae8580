import FlatNet.Feature.Window
import FlatNet.Proofs.Feature.Elements
import Mathlib.Data.Set.Function

/-!
Kernels in the order of filters.

A kernel lists its elements by row, column, input channel and output channel, a filter the same
elements with the output channel first.  Both ways of counting the positions meet every place once,
so the elements of a kernel can be moved one by one, in the order of the kernel, each to a place of
its own: what is read and written is inside, nothing is overwritten, and nothing is left out.

* `Kernel.positions`, `Kernel.hwioPlace`, `Kernel.ohwiPlace`: positions and their places in both
  orders, with `Kernel.bijOn_hwioPlace` and `Kernel.bijOn_ohwiPlace`;
* `size_of_hwioToOhwi`, `getElem?_of_hwioToOhwi`, `exists_hwioToOhwi`: the length of a filter, its
  elements, and which kernels have one;
* `Kernel.move`, `Kernel.moveAll`: an element moved to its place, and all of them;
* `Kernel.Transposed`, `hwioToOhwi_transposes`: what makes a filter the transposition of a kernel,
  and that it is the result.
-/

namespace FlatNet

variable {α : Type} {kernel filter : Array α} {kh kw ci co : Nat}

namespace Kernel

/-! ### Positions -/

/-- The positions of a kernel in its order: row, column, input channel, output channel. -/
def positions (kh kw ci co : Nat) : List (Nat × Nat × Nat × Nat) :=
  List.range kh ×ˢ List.range kw ×ˢ List.range ci ×ˢ List.range co

/-- The place of a position in a kernel, where the output channel runs fastest. -/
def hwioPlace (kw ci co : Nat) (p : Nat × Nat × Nat × Nat) : Nat :=
  ((p.1 * kw + p.2.1) * ci + p.2.2.1) * co + p.2.2.2

lemma hwioPlace_eq (kw ci co : Nat) (p : Nat × Nat × Nat × Nat) :
    hwioPlace kw ci co p = FeatureMap.place ⟨kw, ci, co⟩ p.1 p.2.1 p.2.2.1 p.2.2.2 := rfl

/-- The place of a position in a filter, where it runs slowest. -/
def ohwiPlace (kh kw ci : Nat) (p : Nat × Nat × Nat × Nat) : Nat :=
  ((p.2.2.2 * kh + p.1) * kw + p.2.1) * ci + p.2.2.1

lemma mem_positions_iff {p : Nat × Nat × Nat × Nat} :
    p ∈ positions kh kw ci co ↔ p.1 < kh ∧ p.2.1 < kw ∧ p.2.2.1 < ci ∧ p.2.2.2 < co := by
  obtain ⟨y, x, i, o⟩ := p
  simp only [positions, List.mem_product, List.mem_range]

lemma nodup_positions : (positions kh kw ci co).Nodup :=
  .product List.nodup_range (.product List.nodup_range (.product List.nodup_range List.nodup_range))

/-- A position of a kernel is read off its place. -/
lemma invOn_hwioPlace : Set.InvOn (FeatureMap.position ⟨kw, ci, co⟩) (hwioPlace kw ci co)
    {p | p ∈ positions kh kw ci co} (Set.Iio (kh * kw * ci * co)) := by
  refine ⟨fun p hp => ?_, fun place _ => FeatureMap.place_position ⟨kw, ci, co⟩ place⟩
  obtain ⟨-, column, input, output⟩ := mem_positions_iff.1 hp
  rw [hwioPlace_eq]
  exact FeatureMap.position_place p.1 column input output

lemma mapsTo_hwioPlace : Set.MapsTo (hwioPlace kw ci co) {p | p ∈ positions kh kw ci co}
    (Set.Iio (kh * kw * ci * co)) := by
  intro p hp
  obtain ⟨row, column, input, output⟩ := mem_positions_iff.1 hp
  rw [Set.mem_Iio, hwioPlace_eq]
  exact FeatureMap.place_lt row column input output

lemma mapsTo_position : Set.MapsTo (FeatureMap.position ⟨kw, ci, co⟩)
    (Set.Iio (kh * kw * ci * co)) {p | p ∈ positions kh kw ci co} := fun _ hplace =>
  mem_positions_iff.2 (@FeatureMap.position_lt kh ⟨kw, ci, co⟩ _ hplace)

/-- Positions and places of a kernel belong to each other. -/
lemma bijOn_hwioPlace : Set.BijOn (hwioPlace kw ci co) {p | p ∈ positions kh kw ci co}
    (Set.Iio (kh * kw * ci * co)) := invOn_hwioPlace.bijOn mapsTo_hwioPlace mapsTo_position

/-- So do positions and places of a filter: they are those of a kernel whose first dimension is
the output channel. -/
lemma bijOn_ohwiPlace : Set.BijOn (ohwiPlace kh kw ci) {p | p ∈ positions kh kw ci co}
    (Set.Iio (kh * kw * ci * co)) := by
  have turned : Set.BijOn (fun p : Nat × Nat × Nat × Nat => (p.2.2.2, p.1, p.2.1, p.2.2.1))
      {p | p ∈ positions kh kw ci co} {p | p ∈ positions co kh kw ci} := by
    refine ⟨fun p hp => ?_, fun p _ q _ same => ?_, fun q hq => ?_⟩
    · obtain ⟨row, column, input, output⟩ := mem_positions_iff.1 hp
      exact mem_positions_iff.2 ⟨output, row, column, input⟩
    · simp only [Prod.mk.injEq] at same
      obtain ⟨output, row, column, input⟩ := same
      exact Prod.ext row (Prod.ext column (Prod.ext input output))
    · obtain ⟨output, row, column, input⟩ := mem_positions_iff.1 hq
      exact ⟨(q.2.1, q.2.2.1, q.2.2.2, q.1), mem_positions_iff.2 ⟨row, column, input, output⟩, rfl⟩
  have whole : kh * kw * ci * co = co * kh * kw * ci := by ring
  have formed : ohwiPlace kh kw ci
      = hwioPlace kh kw ci ∘ fun p => (p.2.2.2, p.1, p.2.1, p.2.2.1) := rfl
  rw [whole, formed]
  exact bijOn_hwioPlace.comp turned

end Kernel

/-! ### Elements -/

/-- A transposed kernel has the elements of the kernel, which fill its dimensions. -/
lemma size_of_hwioToOhwi (h : hwioToOhwi kernel (kh, kw, ci, co) = .value filter) :
    kernel.size = kh * kw * ci * co ∧ filter.size = kernel.size := by
  simp only [hwioToOhwi, Outcome.bind_eq_value_iff, Outcome.require_eq_value_iff,
    Outcome.mapM_eq_value_iff, Outcome.pure_eq, Outcome.value.injEq, decide_eq_true_eq] at h
  obtain ⟨expected, product, -, size, elements, places, rfl⟩ := h
  have exact := (Size.product_ends (P := fun _ => True) _).of_value product
  simp only [List.foldl_cons, List.foldl_nil, Nat.one_mul] at exact
  exact ⟨size.trans exact, by
    rw [List.size_toArray, ← places.length_eq, List.length_range]⟩

/-- A transposed kernel has at row `y` and column `x`, for input channel `i` and output channel `o`,
the element that the kernel has there. -/
lemma getElem?_of_hwioToOhwi (h : hwioToOhwi kernel (kh, kw, ci, co) = .value filter)
    {y x i o : Nat} (hy : y < kh) (hx : x < kw) (hi : i < ci) (ho : o < co) :
    filter[((o * kh + y) * kw + x) * ci + i]? = kernel[((y * kw + x) * ci + i) * co + o]? := by
  have full := (size_of_hwioToOhwi h).1
  have inside : ((o * kh + y) * kw + x) * ci + i < kernel.size := by
    rw [full, show kh * kw * ci * co = co * kh * kw * ci by ring]
    exact Size.row_add_lt (Size.row_add_lt (Size.row_add_lt ho hy) hx) hi
  simp only [hwioToOhwi, Outcome.bind_eq_value_iff, Outcome.mapM_eq_value_iff,
    Outcome.orFault_eq_value_iff, Outcome.pure_eq, Outcome.value.injEq] at h
  obtain ⟨_, -, _, -, elements, places, rfl⟩ := h
  have placed : ((o * kh + y) * kw + x) * ci + i < elements.length := by
    rwa [← places.length_eq, List.length_range]
  have moved := places.get (by rwa [List.length_range]) placed
  -- the digits of the place are the four indices
  obtain ⟨q₁, r₁⟩ := Size.row_of_place ((o * kh + y) * kw + x) hi
  obtain ⟨q₂, r₂⟩ := Size.row_of_place (o * kh + y) hx
  obtain ⟨q₃, r₃⟩ := Size.row_of_place o hy
  simp only [List.get_eq_getElem, List.getElem_range, q₁, r₁, q₂, r₂, q₃, r₃] at moved
  rw [moved, List.getElem?_toArray, List.getElem?_eq_getElem placed]

/-- A kernel is transposed if it has the elements of its dimensions, whose partial products are
sizes. -/
lemma exists_hwioToOhwi (counted : Size.product? 1 [kh, kw, ci, co] = some kernel.size) :
    ∃ filter, hwioToOhwi kernel (kh, kw, ci, co) = .value filter := by
  have expected : (Size.product [kh, kw, ci, co] : KernelOutcome Nat) = .value kernel.size :=
    Size.product_eq_value_iff.2 counted
  have full : kh * kw * ci * co = kernel.size := by
    simpa using Size.foldl_mul_of_product? counted
  -- the position of a place in the filter has a place in the kernel
  have each : ∀ place ∈ List.range kernel.size, ∃ e,
      kernel[((place / ci / kw % kh * kw + place / ci % kw) * ci + place % ci) * co
        + place / ci / kw / kh]? = some e := by
    intro place hplace
    rw [List.mem_range, ← full, show kh * kw * ci * co = co * kh * kw * ci by ring] at hplace
    obtain ⟨output, row, column, input⟩ :=
      Kernel.mem_positions_iff.1 (Kernel.mapsTo_position hplace)
    have within : (_, _, _, _) ∈ Kernel.positions kh kw ci co :=
      Kernel.mem_positions_iff.2 ⟨row, column, input, output⟩
    have inside := Kernel.mapsTo_hwioPlace within
    rw [full] at inside
    exact ⟨_, Array.getElem?_eq_getElem inside⟩
  obtain ⟨elements, found⟩ := exists_forall₂ each
  refine ⟨elements.toArray, ?_⟩
  simp only [hwioToOhwi, expected, decide_true, Outcome.require_true, Outcome.value_bind]
  refine Outcome.bind_eq_value_iff.2 ⟨elements, Outcome.mapM_eq_value_iff.2 ?_, rfl⟩
  exact found.imp fun place e there => Outcome.orFault_eq_value_iff.2 there

/-- Transposing a kernel moves its elements without looking at them. -/
lemma hwioToOhwi_map {α β : Type} (f : α → β) {kernel filter : Array α}
    {dims : Nat × Nat × Nat × Nat} (h : hwioToOhwi kernel dims = .value filter) :
    hwioToOhwi (kernel.map f) dims = .value (filter.map f) := by
  simp only [hwioToOhwi, Outcome.bind_eq_value_iff, Outcome.require_eq_value_iff,
    Outcome.mapM_eq_value_iff, Outcome.orFault_eq_value_iff, Outcome.pure_eq,
    Outcome.value.injEq, Array.size_map] at h ⊢
  obtain ⟨expected, product, _, size, elements, places, rfl⟩ := h
  refine ⟨expected, product, (), size, elements.map f, ?_, by simp⟩
  rw [List.forall₂_map_right_iff]
  exact places.imp fun place a found => by rw [Array.getElem?_map, found, Option.map_some]

namespace Kernel

/-! ### Moves -/

/-- The place of four coordinates in a table, as the machine forms it. -/
def formPlace {ε : Type} (b c d : Nat) (p : Nat × Nat × Nat × Nat) : Outcome ε Nat := do
  let second ← Size.add (← Size.mul p.1 b) p.2.1
  let third ← Size.add (← Size.mul second c) p.2.2.1
  Size.add (← Size.mul third d) p.2.2.2

/-- Move the element at a position of a kernel to its place in a filter.  Both are looked up, and to
look outside breaks off. -/
def move (kernel : Array α) (kh kw ci co : Nat) (filter : Array α) (p : Nat × Nat × Nat × Nat) :
    KernelOutcome (Array α) := do
  let source ← formPlace kw ci co p
  let target ← formPlace kh kw ci (p.2.2.2, p.1, p.2.1, p.2.2.1)
  let element ← Outcome.orFault kernel[source]?
  if target < filter.size then return filter.setIfInBounds target element else .fault

/-- Move the elements of a kernel one after the other, in the order of the kernel. -/
def moveAll (kernel : Array α) (kh kw ci co : Nat) (filter : Array α) : KernelOutcome (Array α) :=
  (positions kh kw ci co).foldlM (move kernel kh kw ci co) filter

/-- The place of coordinates in a table of which all places are sizes. -/
lemma formPlace_eq_value {ε : Type} {a b c d : Nat} {p : Nat × Nat × Nat × Nat}
    (hp : p ∈ positions a b c d) (small : a * b * c * d < Size.bound) :
    (formPlace b c d p : Outcome ε Nat) = .value (hwioPlace b c d p) := by
  obtain ⟨-, hb, hc, hd⟩ := mem_positions_iff.1 hp
  have inside : hwioPlace b c d p < a * b * c * d := bijOn_hwioPlace.mapsTo hp
  have second : p.1 * b + p.2.1 ≤ (p.1 * b + p.2.1) * c :=
    Nat.le_mul_of_pos_right _ (Nat.zero_lt_of_lt hc)
  have third : (p.1 * b + p.2.1) * c + p.2.2.1 ≤ ((p.1 * b + p.2.1) * c + p.2.2.1) * d :=
    Nat.le_mul_of_pos_right _ (Nat.zero_lt_of_lt hd)
  rw [hwioPlace] at inside
  simp only [formPlace, Outcome.bind_eq_value_iff, Size.mul_eq_value_iff, Size.add_eq_value_iff]
  exact ⟨_, ⟨by omega, rfl⟩, _, ⟨by omega, rfl⟩, _, ⟨by omega, rfl⟩, _, ⟨by omega, rfl⟩, _,
    ⟨by omega, rfl⟩, by omega, rfl⟩

variable (size : kernel.size = kh * kw * ci * co) (small : kernel.size < Size.bound)
include size small

/-- Every position is read inside the kernel and written inside the filter. -/
lemma exists_move {p : Nat × Nat × Nat × Nat} (hp : p ∈ positions kh kw ci co)
    (full : filter.size = kernel.size) :
    ∃ e, kernel[hwioPlace kw ci co p]? = some e ∧
      move kernel kh kw ci co filter p = .value (filter.setIfInBounds (ohwiPlace kh kw ci p) e) := by
  have source : hwioPlace kw ci co p < kernel.size := size ▸ bijOn_hwioPlace.mapsTo hp
  have target : ohwiPlace kh kw ci p < filter.size := full ▸ size ▸ bijOn_ohwiPlace.mapsTo hp
  obtain ⟨row, column, input, output⟩ := mem_positions_iff.1 hp
  have turned : (p.2.2.2, p.1, p.2.1, p.2.2.1) ∈ positions co kh kw ci :=
    mem_positions_iff.2 ⟨output, row, column, input⟩
  have whole : kernel.size = co * kh * kw * ci := by
    rw [size]
    ring
  have found := Array.getElem?_eq_getElem source
  have there : (formPlace kh kw ci (p.2.2.2, p.1, p.2.1, p.2.2.1) : KernelOutcome Nat)
      = .value (ohwiPlace kh kw ci p) :=
    formPlace_eq_value turned (whole ▸ small)
  refine ⟨_, found, ?_⟩
  rw [move, formPlace_eq_value hp (size ▸ small), Outcome.value_bind, there, Outcome.value_bind,
    found, Outcome.orFault_some, Outcome.value_bind, if_pos target]
  rfl

/-- Elements that are moved to places of their own are there in the end, and the other places
are left alone. -/
lemma exists_foldlM_move {ps : List (Nat × Nat × Nat × Nat)}
    (within : ∀ p ∈ ps, p ∈ positions kh kw ci co) (apart : (ps.map (ohwiPlace kh kw ci)).Nodup)
    (full : filter.size = kernel.size) :
    ∃ r, ps.foldlM (move kernel kh kw ci co) filter = .value r ∧ r.size = kernel.size ∧
      (∀ p ∈ ps, r[ohwiPlace kh kw ci p]? = kernel[hwioPlace kw ci co p]?) ∧
      ∀ j ∉ ps.map (ohwiPlace kh kw ci), r[j]? = filter[j]? := by
  -- over the positions that are left; each goes to a place of its own
  induction ps generalizing filter with
  | nil => exact ⟨filter, rfl, full, nofun, fun _ _ => rfl⟩
  | cons p ps ih =>
    obtain ⟨here, later⟩ := List.forall_mem_cons.1 within
    obtain ⟨own, apart⟩ := List.nodup_cons.1 apart
    obtain ⟨e, found, moved⟩ := exists_move size small here full
    have next : (filter.setIfInBounds (ohwiPlace kh kw ci p) e).size = kernel.size := by
      rw [Array.size_setIfInBounds, full]
    obtain ⟨r, run, length, elements, others⟩ := ih later apart next
    refine ⟨r, ?_, length, List.forall_mem_cons.2 ⟨?_, elements⟩, fun j hj => ?_⟩
    · rw [List.foldlM_cons, moved, Outcome.value_bind, run]
    · -- what is moved later goes elsewhere
      have target : ohwiPlace kh kw ci p < filter.size :=
        full ▸ size ▸ bijOn_ohwiPlace.mapsTo here
      rw [others _ own, found, Array.getElem?_setIfInBounds_self_of_lt target]
    · rw [List.map_cons, List.mem_cons, not_or] at hj
      rw [others j hj.2, Array.getElem?_setIfInBounds_ne (Ne.symm hj.1)]

omit size small in
/-- The places of a filter are written one after the other, each of them once. -/
lemma perm_ohwiPlace :
    ((positions kh kw ci co).map (ohwiPlace kh kw ci)).Perm (List.range (kh * kw * ci * co)) := by
  have distinct : ((positions kh kw ci co).map (ohwiPlace kh kw ci)).Nodup :=
    nodup_positions.map_on fun p hp q hq => bijOn_ohwiPlace.injOn hp hq
  rw [List.perm_ext_iff_of_nodup distinct List.nodup_range]
  intro place
  rw [List.mem_map, List.mem_range]
  constructor
  · rintro ⟨p, hp, rfl⟩
    exact bijOn_ohwiPlace.mapsTo hp
  · exact fun inside => bijOn_ohwiPlace.surjOn inside

/-- All moves together give the transposition of a kernel, whatever the filter held before. -/
lemma moveAll_eq_value (h : hwioToOhwi kernel (kh, kw, ci, co) = .value filter) {start : Array α}
    (full : start.size = kernel.size) : moveAll kernel kh kw ci co start = .value filter := by
  have apart := perm_ohwiPlace.nodup_iff.2 (List.nodup_range (n := kh * kw * ci * co))
  obtain ⟨r, run, length, elements, -⟩ :=
    exists_foldlM_move size small (fun _ hp => hp) apart full
  rw [moveAll, run]
  congr 1
  refine Array.ext_getElem? fun j => ?_
  by_cases inside : j < kernel.size
  · rw [size] at inside
    obtain ⟨p, hp, rfl⟩ := bijOn_ohwiPlace.surjOn inside
    obtain ⟨row, column, input, output⟩ := mem_positions_iff.1 hp
    rw [elements p hp]
    exact (getElem?_of_hwioToOhwi h row column input output).symm
  · rw [Array.getElem?_eq_none (by omega),
      Array.getElem?_eq_none (by rw [(size_of_hwioToOhwi h).2]; omega)]

end Kernel

/-- A filter is the transposition of a kernel: it has the same elements, each at another place, and
is what comes of moving them one by one. -/
structure Kernel.Transposed (kernel filter : Array α) (kh kw ci co : Nat) : Prop where
  /-- There are as many elements. -/
  size : filter.size = kernel.size
  /-- Every position has a place inside both of them, and the same element there. -/
  element : ∀ y < kh, ∀ x < kw, ∀ i < ci, ∀ o < co, ∃ e,
    kernel[((y * kw + x) * ci + i) * co + o]? = some e ∧
      filter[((o * kh + y) * kw + x) * ci + i]? = some e
  /-- Places go to places one to one, those of a position to those of the same position. -/
  carried : ∃ f : Nat → Nat, Set.BijOn f (Set.Iio kernel.size) (Set.Iio filter.size) ∧
    (∀ p ∈ positions kh kw ci co, f (hwioPlace kw ci co p) = ohwiPlace kh kw ci p) ∧
    ∀ j < kernel.size, filter[f j]? = kernel[j]?
  /-- The places that are written, in the order of the kernel, are all places, each of them once. -/
  once : ((positions kh kw ci co).map (ohwiPlace kh kw ci)).Perm (List.range filter.size)
  /-- Moving every element to its place looks at nothing outside and gives the filter, whatever was
  there before. -/
  moved : ∀ start : Array α, start.size = kernel.size →
    moveAll kernel kh kw ci co start = .value filter

/-- A kernel that has the elements of its dimensions, whose partial products are sizes, is
transposed. -/
theorem hwioToOhwi_transposes {kernel : Array α} {kh kw ci co : Nat} (rows : kh < Size.bound)
    (area : kh * kw < Size.bound) (inputs : kh * kw * ci < Size.bound)
    (all : kh * kw * ci * co < Size.bound) (size : kernel.size = kh * kw * ci * co) :
    ∃ filter, hwioToOhwi kernel (kh, kw, ci, co) = .value filter ∧
      Kernel.Transposed kernel filter kh kw ci co := by
  have counted : Size.product? 1 [kh, kw, ci, co] = some kernel.size := by
    simp only [Size.product?, List.foldlM_cons, List.foldlM_nil, Option.bind_eq_bind,
      Option.bind_eq_some_iff, Size.mul?_eq_some_iff, Nat.one_mul]
    exact ⟨_, ⟨rows, rfl⟩, _, ⟨area, rfl⟩, _, ⟨inputs, rfl⟩, _, ⟨all, rfl⟩, congrArg some size.symm⟩
  obtain ⟨filter, h⟩ := exists_hwioToOhwi counted
  have same := (size_of_hwioToOhwi h).2
  refine ⟨filter, h, same, fun y hy x hx i hi o ho => ?_, ?_, ?_, ?_⟩
  · have within : (y, x, i, o) ∈ Kernel.positions kh kw ci co :=
      Kernel.mem_positions_iff.2 ⟨hy, hx, hi, ho⟩
    have inside : ((y * kw + x) * ci + i) * co + o < kernel.size :=
      size ▸ Kernel.mapsTo_hwioPlace within
    have found := Array.getElem?_eq_getElem inside
    exact ⟨_, found, (getElem?_of_hwioToOhwi h hy hx hi ho).trans found⟩
  · refine ⟨Kernel.ohwiPlace kh kw ci ∘ FeatureMap.position ⟨kw, ci, co⟩, ?_, fun p hp => ?_,
      fun j hj => ?_⟩
    · rw [same, size]
      exact Kernel.bijOn_ohwiPlace.comp
        (Kernel.invOn_hwioPlace.symm.bijOn Kernel.mapsTo_position Kernel.mapsTo_hwioPlace)
    · rw [Function.comp_apply, Kernel.invOn_hwioPlace.1 hp]
    · rw [size] at hj
      obtain ⟨row, column, input, output⟩ :=
        Kernel.mem_positions_iff.1 (Kernel.mapsTo_position hj)
      refine (getElem?_of_hwioToOhwi h row column input output).trans ?_
      exact congrArg (kernel[·]?) (Kernel.invOn_hwioPlace.2 hj)
  · rw [same, size]
    exact Kernel.perm_ohwiPlace
  · exact fun start full => Kernel.moveAll_eq_value size (size ▸ all) h full

/-- A kernel of one row, two columns, two input channels and three output channels. -/
theorem hwioToOhwi_transposes_small :
    let kernel := #[1, 2, 3, 4, 5, 6, 7, 8, 9, 10, 11, 12]
    ∃ filter, hwioToOhwi kernel (1, 2, 2, 3) = .value filter ∧
      filter = #[1, 4, 7, 10, 2, 5, 8, 11, 3, 6, 9, 12] ∧
      Kernel.Transposed kernel filter 1 2 2 3 := by
  intro kernel
  obtain ⟨filter, result, transposed⟩ : ∃ filter, hwioToOhwi kernel (1, 2, 2, 3) = .value filter ∧
      Kernel.Transposed kernel filter 1 2 2 3 :=
    hwioToOhwi_transposes (by decide) (by decide) (by decide) (by decide) rfl
  exact ⟨filter, result, Outcome.value.inj (result.symm.trans rfl), transposed⟩

end FlatNet
