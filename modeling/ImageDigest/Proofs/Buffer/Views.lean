import ImageDigest.Proofs.Buffer
import ImageDigest.Proofs.Number.Word

/-! The length of the data of a buffer keeps every pixel inside of it. Reading pixels by row and
column, by position or all together shows the same colors, and no index on the way is longer than a
word. -/

namespace ImageDigest

def Rgb.bytes (c : Rgb) : List UInt8 := [c.red, c.green, c.blue]

namespace Buffer

open Number

variable {b : Buffer} {size : Size} {channels : ℕ} {data : Array UInt8} {x y i : ℕ}

/-- The length that data of a size has; none where a product is no word. -/
def length? (size : Size) (channels : ℕ) : Option ℕ := do
  longWord? ((← longWord? size.area) * channels)

theorem eq_of_length? {n : ℕ} (found : length? size channels = some n) :
    n = size.area * channels := by
  simp only [length?, longWord?, Option.bind_eq_bind, Option.bind_eq_some_iff,
    Option.ite_none_right_eq_some, Option.some_inj] at found
  obtain ⟨area, ⟨-, rfl⟩, -, rfl⟩ := found
  rfl

def ofData? (size : Size) (channels : ℕ) (data : Array UInt8) :
    Option (Except BufferError Buffer) :=
  if bounds : 1 ≤ channels ∧ channels ≤ 4 then
    bounds.elim fun positive atMost => (length? size channels).pbind fun expected found =>
      if length : data.size = expected then
        some (.ok ⟨size, channels, data, positive, atMost, length.trans (eq_of_length? found)⟩)
      else some (.error (.lengthMismatch size channels data.size))
  else some (.error (.unsupportedChannels channels))

/-- The first sample of a pixel; none where an index is no word or leaves the data. -/
def firstChannel? (b : Buffer) (x y : ℕ) : Option UInt8 := do
  let pixel ← longWord? ((← longWord? (y * b.size.width)) + x)
  let first ← longWord? (pixel * b.channels)
  b.data[first]?

def pixel? (b : Buffer) (i : ℕ) : Option (Array UInt8) := do
  let first ← longWord? (i * b.channels)
  let last ← longWord? (first + b.channels)
  if last ≤ b.data.size then some (b.data.extract first last) else none

def rgbAt? (b : Buffer) (i : ℕ) : Option Rgb := do
  let pixel ← b.pixel? i
  let first ← pixel[0]?
  if b.channels ≤ 2 then return .ofGray first
  else return ⟨first, ← pixel[1]?, ← pixel[2]?⟩

def rgbPixels? (b : Buffer) : Option (List Rgb) := do
  (List.range (← longWord? b.size.area)).mapM b.rgbAt?

section Words

theorem length?_eq (positive : 1 ≤ channels) (word : size.area * channels < 2 ^ 64) :
    length? size channels = some (size.area * channels) := by
  have area : size.area < 2 ^ 64 := (Nat.le_mul_of_pos_right _ positive).trans_lt word
  rw [length?, longWord_of_lt area, Option.bind_eq_bind, Option.bind_some, longWord_of_lt word]

theorem ofData?_eq (data : Array UInt8) (word : size.area * channels < 2 ^ 64) :
    ofData? size channels data = some (ofData size channels data) := by
  rw [ofData?, ofData]
  by_cases bounds : 1 ≤ channels ∧ channels ≤ 4
  · rw [dif_pos bounds, dif_pos bounds, And.elim, Option.pbind_some' (length?_eq bounds.1 word)]
    split <;> rfl
  · rw [dif_neg bounds, dif_neg bounds]

theorem firstChannel?_eq (word : b.data.size < 2 ^ 64) (column : x < b.size.width)
    (row : y < b.size.height) : b.firstChannel? x y = some (b.firstChannel x y) := by
  have inside := first_lt column row
  have pixel : y * b.size.width + x ≤ (y * b.size.width + x) * b.channels :=
    Nat.le_mul_of_pos_right _ b.channels_pos
  simp only [firstChannel?, Option.bind_eq_bind]
  rw [longWord_of_lt (by omega), Option.bind_some, longWord_of_lt (by omega), Option.bind_some,
    longWord_of_lt (by omega), Option.bind_some, getElem?_data inside, firstChannel]

theorem pixel_end_le (inside : i < b.size.area) :
    i * b.channels + b.channels ≤ b.data.size := by
  rw [← Nat.succ_mul, b.data_size]
  exact Nat.mul_le_mul_right b.channels inside

theorem pixel?_eq (word : b.data.size < 2 ^ 64) (inside : i < b.size.area) :
    b.pixel? i =
      some (b.data.extract (i * b.channels) (i * b.channels + b.channels)) := by
  have last := pixel_end_le inside
  simp only [pixel?, Option.bind_eq_bind]
  rw [longWord_of_lt (by omega), Option.bind_some, longWord_of_lt (by omega), Option.bind_some,
    if_pos last]

theorem getElem?_pixel (inside : i < b.size.area) {k : ℕ} (channel : k < b.channels) :
    (b.data.extract (i * b.channels) (i * b.channels + b.channels))[k]? =
      some (b.byteAt (i * b.channels + k)) := by
  have last := pixel_end_le inside
  rw [Array.getElem?_extract, if_pos (by omega), getElem?_data (by omega)]

theorem rgbAt?_eq (word : b.data.size < 2 ^ 64) (inside : i < b.size.area) :
    b.rgbAt? i = some (b.rgbAt i) := by
  simp only [rgbAt?, Option.bind_eq_bind]
  rw [pixel?_eq word inside, Option.bind_some, getElem?_pixel inside b.channels_pos,
    Option.bind_some, Nat.add_zero]
  split
  case isTrue gray =>
    rw [rgbAt_of_gray gray]
    rfl
  case isFalse color =>
    rw [getElem?_pixel inside (by omega), Option.bind_some, getElem?_pixel inside (by omega),
      Option.bind_some, rgbAt_of_color (Nat.lt_of_not_le color)]
    rfl

theorem mapM_eq_some {α β : Type} {members : List α} {f : α → Option β} {g : α → β}
    (each : ∀ a ∈ members, f a = some (g a)) : members.mapM f = some (members.map g) := by
  induction members with
  | nil => rfl
  | cons a rest ih =>
      rw [List.mapM_cons, each a List.mem_cons_self,
        ih fun a member => each a (List.mem_cons_of_mem _ member)]
      rfl

theorem rgbPixels?_eq (word : b.data.size < 2 ^ 64) : b.rgbPixels? = some b.rgbPixels := by
  have area : b.size.area ≤ b.data.size := by
    rw [b.data_size]
    exact Nat.le_mul_of_pos_right _ b.channels_pos
  simp only [rgbPixels?, Option.bind_eq_bind]
  rw [longWord_of_lt (by omega), Option.bind_some]
  exact mapM_eq_some fun i member => rgbAt?_eq word (List.mem_range.mp member)

end Words

section Tiles

theorem flatMap_range_rows {α : Type} (f : ℕ → α) (m n : ℕ) :
    ((List.range m).flatMap fun i => (List.range n).map fun k => f (i * n + k)) =
      (List.range (m * n)).map f := by
  induction m with
  | zero => rw [Nat.zero_mul]; rfl
  | succ m ih =>
      rw [List.range_succ, List.flatMap_append, ih, List.flatMap_singleton, Nat.succ_mul,
        List.range_add, List.map_append, List.map_map]
      rfl

theorem map_byteAt (b : Buffer) : (List.range b.data.size).map b.byteAt = b.data.toList := by
  apply List.ext_getElem
  · simp
  · intro i inside inside'
    have bound : i < b.data.size := by simpa using inside'
    simp [byteAt, Array.getD, bound]

theorem flatMap_bytes_rgbPixels (color : b.channels = 3) :
    b.rgbPixels.flatMap Rgb.bytes = b.data.toList := by
  have pixel (i : ℕ) : (b.rgbAt i).bytes = (List.range 3).map fun k => b.byteAt (i * 3 + k) := by
    rw [rgbAt_of_color (Nat.le_of_eq color.symm), color]
    rfl
  calc b.rgbPixels.flatMap Rgb.bytes
    _ = (List.range b.size.area).flatMap fun i => (b.rgbAt i).bytes := List.flatMap_map _ _ _
    _ = (List.range b.size.area).flatMap fun i =>
          (List.range 3).map fun k => b.byteAt (i * 3 + k) := by simp only [pixel]
    _ = (List.range b.data.size).map b.byteAt := by
      rw [flatMap_range_rows, b.data_size, color]
    _ = b.data.toList := b.map_byteAt

def copies (n : ℕ) (c : Rgb) : Array UInt8 := ((List.replicate n c).flatMap Rgb.bytes).toArray

theorem filled_data (size : Size) (c : Rgb) : (filled size c).data = copies size.area c := by
  have pixels : (filled size c).rgbPixels = List.replicate size.area c :=
    (filled_uniform size c).rgbPixels
  rw [copies, ← pixels, flatMap_bytes_rgbPixels rfl, Array.toArray_toList]

theorem ofData_filled (size : Size) (c : Rgb) :
    ofData size 3 (copies size.area c) = .ok (filled size c) := by
  have length : (copies size.area c).size = size.area * 3 :=
    filled_data size c ▸ (filled size c).data_size
  rw [ofData_ok (by decide) (by decide) length]
  simp only [← filled_data]
  rfl

end Tiles

/-- No view of the buffer reads outside of its data, and all of them show the same colors. -/
structure Coherent (b : Buffer) : Prop where
  firstChannel_inside : ∀ x < b.size.width, ∀ y < b.size.height,
    b.firstChannel? x y = some (b.firstChannel x y)
  rgbAt_inside : ∀ i < b.size.area, b.rgbAt? i = some (b.rgbAt i)
  rgbPixels_inside : b.rgbPixels? = some b.rgbPixels
  length : b.rgbPixels.length = b.size.area
  entry : ∀ x < b.size.width, ∀ y < b.size.height,
    b.rgbPixels[y * b.size.width + x]? = some (b.rgbAt (y * b.size.width + x)) ∧
      (b.rgbAt (y * b.size.width + x)).red = b.firstChannel x y
  bytes : b.channels = 3 → b.rgbPixels.flatMap Rgb.bytes = b.data.toList

theorem coherent (word : b.data.size < 2 ^ 64) : b.Coherent where
  firstChannel_inside _ column _ row := firstChannel?_eq word column row
  rgbAt_inside _ inside := rgbAt?_eq word inside
  rgbPixels_inside := rgbPixels?_eq word
  length := by rw [rgbPixels, List.length_map, List.length_range, pixelCount]
  entry x column y row := by
    refine ⟨?_, (firstChannel_eq_red b x y).symm⟩
    rw [rgbPixels, pixelCount, List.getElem?_map, List.getElem?_range (Size.index_lt column row),
      Option.map_some]
  bytes := flatMap_bytes_rgbPixels

/-- Data is accepted exactly for one to four channels and with the length of its size, and what is
accepted is coherent. The buffer of one color is the one that copies of the color are accepted
as. -/
theorem ofData_coherent :
    (∀ (size : Size) (channels : ℕ) (data : Array UInt8), size.area * channels < 2 ^ 64 →
      ofData? size channels data = some (ofData size channels data) ∧
      ((∃ b, ofData size channels data = .ok b) ↔
        (1 ≤ channels ∧ channels ≤ 4) ∧ data.size = size.area * channels) ∧
      ∀ b, ofData size channels data = .ok b →
        (b.size = size ∧ b.channels = channels ∧ b.data = data) ∧ b.Coherent) ∧
    ∀ (size : Size) (c : Rgb), size.area * 3 < 2 ^ 64 →
      ofData? size 3 (copies size.area c) = some (.ok (filled size c)) ∧
      (filled size c).Coherent ∧ (filled size c).rgbPixels = List.replicate size.area c := by
  constructor
  · intro size channels data word
    refine ⟨ofData?_eq data word, ofData_ok_iff size channels data, ?_⟩
    intro b taken
    obtain ⟨rfl, rfl, rfl⟩ := ofData_fields taken
    exact ⟨⟨rfl, rfl, rfl⟩, coherent (b.data_size ▸ word)⟩
  · intro size c word
    refine ⟨?_, coherent ((filled size c).data_size ▸ word), (filled_uniform size c).rgbPixels⟩
    rw [ofData?_eq _ word, ofData_filled]

theorem ofData_coherent_two :
    (∃ b, ofData ⟨2, 1⟩ 3 #[1, 2, 3, 4, 5, 6] = .ok b ∧ b.rgbAt? 1 = some ⟨4, 5, 6⟩ ∧
      b.rgbPixels.flatMap Rgb.bytes = [1, 2, 3, 4, 5, 6]) ∧
    (¬ ∃ b, ofData ⟨2, 1⟩ 4 #[1, 2, 3, 4, 5, 6] = .ok b) ∧
    ofData? ⟨1, 2⟩ 3 #[7, 8, 9, 7, 8, 9] = some (.ok (filled ⟨1, 2⟩ ⟨7, 8, 9⟩)) := by
  obtain ⟨-, accepted, views⟩ := ofData_coherent.1 ⟨2, 1⟩ 3 #[1, 2, 3, 4, 5, 6] (by decide)
  obtain ⟨-, refused, -⟩ := ofData_coherent.1 ⟨2, 1⟩ 4 #[1, 2, 3, 4, 5, 6] (by decide)
  obtain ⟨same, -⟩ := ofData_coherent.2 ⟨1, 2⟩ ⟨7, 8, 9⟩ (by decide)
  obtain ⟨b, taken⟩ := accepted.mpr (by decide)
  obtain ⟨⟨size, channels, data⟩, coherent⟩ := views b taken
  refine ⟨⟨b, taken, ?_, ?_⟩, mt refused.mp (by decide), same⟩
  · have pixel : b.rgbAt 1 = ⟨4, 5, 6⟩ := by
      rw [rgbAt_of_color (Nat.le_of_eq channels.symm), channels, byteAt, byteAt, byteAt, data]
      rfl
    rw [coherent.rgbAt_inside 1 (by rw [size]; decide), pixel]
  · rw [coherent.bytes channels, data]

end Buffer

end ImageDigest
