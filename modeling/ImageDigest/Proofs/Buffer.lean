import ImageDigest.Proofs.Geometry.Size

namespace ImageDigest.Buffer

variable {a b : Buffer}

theorem getElem?_data {i : Nat} (inside : i < b.data.size) : b.data[i]? = some (b.byteAt i) := by
  rw [Array.getElem?_eq_getElem inside, byteAt, Array.getD, dif_pos inside]
  rfl

theorem ofData_ok {size : Size} {channels : Nat} {data : Array UInt8} (positive : 1 ≤ channels)
    (atMost : channels ≤ 4) (length : data.size = size.area * channels) :
    ofData size channels data = .ok ⟨size, channels, data, positive, atMost, length⟩ := by
  rw [ofData, dif_pos ⟨positive, atMost⟩, dif_pos length]

theorem ofData_fields {size : Size} {channels : Nat} {data : Array UInt8}
    (taken : ofData size channels data = .ok b) :
    b.size = size ∧ b.channels = channels ∧ b.data = data := by
  rw [ofData] at taken
  split at taken
  case isTrue bounds =>
    split at taken
    case isTrue length =>
      cases taken
      exact ⟨rfl, rfl, rfl⟩
    case isFalse => cases taken
  case isFalse => cases taken

theorem ofData_ok_iff (size : Size) (channels : Nat) (data : Array UInt8) :
    (∃ b, ofData size channels data = .ok b) ↔
      (1 ≤ channels ∧ channels ≤ 4) ∧ data.size = size.area * channels := by
  constructor
  · rintro ⟨b, taken⟩
    obtain ⟨rfl, rfl, rfl⟩ := ofData_fields taken
    exact ⟨⟨b.channels_pos, b.channels_le⟩, b.data_size⟩
  · rintro ⟨⟨positive, atMost⟩, length⟩
    exact ⟨_, ofData_ok positive atMost length⟩

theorem byteAt_tabulate {size : Size} {channels : Nat} (sample : Nat → Nat → Nat → UInt8)
    (positive : 1 ≤ channels) (atMost : channels ≤ 4) {p k : Nat} (inside : p < size.area)
    (channel : k < channels) :
    (tabulate size channels sample positive atMost).byteAt (p * channels + k) =
      sample (p % size.width) (p / size.width) k := by
  have bound : p * channels + k < size.area * channels := Size.mul_add_lt_mul channel inside
  have pixel : (p * channels + k) / channels = p := by
    rw [Nat.mul_comm, Nat.mul_add_div positive, Nat.div_eq_of_lt channel, Nat.add_zero]
  have own : (p * channels + k) % channels = k := by
    rw [Nat.mul_comm, Nat.mul_add_mod, Nat.mod_eq_of_lt channel]
  simp [byteAt, tabulate, Array.getD, bound, pixel, own]

theorem firstChannel_tabulate {size : Size} {channels : Nat} (sample : Nat → Nat → Nat → UInt8)
    (positive : 1 ≤ channels) (atMost : channels ≤ 4) {x y : Nat} (column : x < size.width)
    (row : y < size.height) :
    (tabulate size channels sample positive atMost).firstChannel x y = sample x y 0 := by
  have read := byteAt_tabulate sample positive atMost (Size.index_lt column row) positive
  rwa [Nat.mul_comm y, Nat.mul_add_mod, Nat.mod_eq_of_lt column,
    Nat.mul_add_div (Nat.zero_lt_of_lt column), Nat.div_eq_of_lt column, Nat.mul_comm _ y] at read

theorem tabulate_congr {size : Size} {channels : Nat} {f g : Nat → Nat → Nat → UInt8}
    (positive : 1 ≤ channels) (atMost : channels ≤ 4)
    (agree : ∀ x < size.width, ∀ y < size.height, ∀ k < channels, f x y k = g x y k) :
    tabulate size channels f positive atMost = tabulate size channels g positive atMost := by
  simp only [tabulate, mk.injEq, true_and]
  apply congrArg Array.ofFn
  funext i
  have bound : i.val / channels < size.width * size.height :=
    Nat.div_lt_of_lt_mul (Nat.mul_comm size.area channels ▸ i.isLt)
  have column : 0 < size.width := Nat.pos_of_mul_pos_right (Nat.zero_lt_of_lt bound)
  exact agree _ (Nat.mod_lt _ column) _ (Nat.div_lt_of_lt_mul bound) _ (Nat.mod_lt _ positive)

theorem gray_congr {size : Size} {f g : Nat → Nat → UInt8}
    (agree : ∀ x < size.width, ∀ y < size.height, f x y = g x y) : gray size f = gray size g :=
  tabulate_congr _ _ fun x column y row _ _ => agree x column y row

theorem tabulate_byteAt (b : Buffer) :
    tabulate b.size b.channels (fun x y k => b.byteAt ((y * b.size.width + x) * b.channels + k))
      b.channels_pos b.channels_le = b := by
  cases b with
  | mk size channels data positive atMost length =>
      simp only [tabulate, mk.injEq, true_and]
      apply Array.ext
      · rw [Array.size_ofFn, length]
      · intro i inside inside'
        have place : i / channels / size.width * size.width + i / channels % size.width =
            i / channels := Nat.div_add_mod' _ _
        have digit : i / channels * channels + i % channels = i := Nat.div_add_mod' _ _
        rw [Array.getElem_ofFn]
        simp only [byteAt, place, digit, Array.getD, inside', dif_pos]
        rfl

section Copies

/-- A buffer of some size whose pixel in column `x` of row `y` is the one that `b` has in the column
and row `source x y`. -/
def rearranged (b : Buffer) (size : Size) (source : Nat → Nat → Nat × Nat) : Buffer :=
  tabulate size b.channels
    (fun x y k =>
      b.byteAt (((source x y).2 * b.size.width + (source x y).1) * b.channels + k))
    b.channels_pos b.channels_le

theorem firstChannel_rearranged (b : Buffer) {size : Size} (source : Nat → Nat → Nat × Nat)
    {x y : Nat} (column : x < size.width) (row : y < size.height) :
    (b.rearranged size source).firstChannel x y =
      b.firstChannel (source x y).1 (source x y).2 :=
  firstChannel_tabulate _ b.channels_pos b.channels_le column row

def flipped (b : Buffer) : Buffer := b.rearranged b.size fun x y => (x, b.size.height - 1 - y)

def mirrored (b : Buffer) : Buffer := b.rearranged b.size fun x y => (b.size.width - 1 - x, y)

theorem firstChannel_flipped {x y : Nat} (column : x < b.size.width) (row : y < b.size.height) :
    b.flipped.firstChannel x y = b.firstChannel x (b.size.height - 1 - y) :=
  b.firstChannel_rearranged _ column row

theorem firstChannel_mirrored {x y : Nat} (column : x < b.size.width) (row : y < b.size.height) :
    b.mirrored.firstChannel x y = b.firstChannel (b.size.width - 1 - x) y :=
  b.firstChannel_rearranged _ column row

def mapBytes (b : Buffer) (f : UInt8 → UInt8) : Buffer where
  size := b.size
  channels := b.channels
  data := b.data.map f
  channels_pos := b.channels_pos
  channels_le := b.channels_le
  data_size := by rw [Array.size_map, b.data_size]

theorem byteAt_mapBytes (b : Buffer) (f : UInt8 → UInt8) {i : Nat} (inside : i < b.data.size) :
    (b.mapBytes f).byteAt i = f (b.byteAt i) := by
  simp [byteAt, mapBytes, Array.getD, inside]

theorem first_lt {x y : Nat} (column : x < b.size.width) (row : y < b.size.height) :
    (y * b.size.width + x) * b.channels < b.data.size := by
  rw [b.data_size]
  exact Nat.mul_lt_mul_of_pos_right (Size.index_lt column row) b.channels_pos

theorem firstChannel_mem {x y : Nat} (column : x < b.size.width) (row : y < b.size.height) :
    b.firstChannel x y ∈ b.data := by
  have inside := first_lt column row
  rw [firstChannel, byteAt, Array.getD, dif_pos inside]
  exact Array.getElem_mem inside

theorem firstChannel_mapBytes (f : UInt8 → UInt8) {x y : Nat} (column : x < b.size.width)
    (row : y < b.size.height) :
    (b.mapBytes f).firstChannel x y = f (b.firstChannel x y) :=
  b.byteAt_mapBytes f (first_lt column row)

end Copies

theorem firstChannel_eq_red (b : Buffer) (x y : Nat) :
    b.firstChannel x y = (b.rgbAt (y * b.size.width + x)).red := by
  unfold firstChannel rgbAt
  split <;> rfl

/-- One size and the same color at every position, in whatever layout and with whatever alpha. -/
structure SameColors (a b : Buffer) : Prop where
  size : a.size = b.size
  rgbAt : ∀ i < a.pixelCount, a.rgbAt i = b.rgbAt i

namespace SameColors

theorem symm (same : SameColors a b) : SameColors b a := by
  refine ⟨same.size.symm, ?_⟩
  intro i inside
  have inside' : i < a.pixelCount := by rwa [Buffer.pixelCount, same.size]
  exact (same.rgbAt i inside').symm

theorem trans {c : Buffer} (first : SameColors a b) (second : SameColors b c) :
    SameColors a c := by
  refine ⟨first.size.trans second.size, ?_⟩
  intro i inside
  have inside' : i < b.pixelCount := by rwa [Buffer.pixelCount, ← first.size]
  exact (first.rgbAt i inside).trans (second.rgbAt i inside')

theorem pixelCount (same : SameColors a b) : a.pixelCount = b.pixelCount :=
  congrArg Size.area same.size

theorem rgbPixels (same : SameColors a b) : a.rgbPixels = b.rgbPixels := by
  unfold Buffer.rgbPixels
  rw [← same.pixelCount]
  exact List.map_congr_left fun i member => same.rgbAt i (List.mem_range.mp member)

theorem at_position (same : SameColors a b) {x y : Nat} (column : x < a.size.width)
    (row : y < a.size.height) :
    a.rgbAt (y * a.size.width + x) = b.rgbAt (y * b.size.width + x) := by
  rw [same.rgbAt _ (Size.index_lt column row), same.size]

theorem firstChannel (same : SameColors a b) {x y : Nat} (column : x < a.size.width)
    (row : y < a.size.height) : a.firstChannel x y = b.firstChannel x y := by
  rw [firstChannel_eq_red, firstChannel_eq_red, same.at_position column row]

end SameColors

section Layouts

theorem rgbAt_of_gray (gray : b.channels ≤ 2) (i : Nat) :
    b.rgbAt i = .ofGray (b.byteAt (i * b.channels)) := if_pos gray

theorem rgbAt_of_color (color : 3 ≤ b.channels) (i : Nat) :
    b.rgbAt i = ⟨b.byteAt (i * b.channels), b.byteAt (i * b.channels + 1),
      b.byteAt (i * b.channels + 2)⟩ := if_neg (Nat.not_le_of_lt color)

theorem sameColors_of_alpha (size : a.size = b.size) (channels : a.channels = b.channels)
    (layout : a.channels = 2 ∨ a.channels = 4)
    (agree : ∀ i < a.data.size, (i + 1) % a.channels ≠ 0 → a.byteAt i = b.byteAt i) :
    SameColors a b := by
  refine ⟨size, ?_⟩
  intro i inside
  have kept (k : Nat) (color : k + 1 < a.channels) :
      a.byteAt (i * a.channels + k) = b.byteAt (i * a.channels + k) := by
    apply agree
    · rw [a.data_size]
      exact Size.mul_add_lt_mul (Nat.lt_of_succ_lt color) inside
    · rw [Nat.add_assoc, Nat.mul_comm, Nat.mul_add_mod, Nat.mod_eq_of_lt color]
      exact Nat.succ_ne_zero k
  rcases layout with two | four
  · rw [rgbAt_of_gray (Nat.le_of_eq two), rgbAt_of_gray (by omega), ← channels]
    exact congrArg Rgb.ofGray (kept 0 (by omega))
  · rw [rgbAt_of_color (by omega), rgbAt_of_color (by omega), ← channels,
      kept 1 (by omega), kept 2 (by omega)]
    exact congrArg (fun red => Rgb.mk red _ _) (kept 0 (by omega))

theorem sameColors_of_grayAlpha (size : a.size = b.size) (single : a.channels = 1)
    (double : b.channels = 2) (values : ∀ i < a.pixelCount, b.byteAt (2 * i) = a.byteAt i) :
    SameColors a b := by
  refine ⟨size, ?_⟩
  intro i inside
  rw [rgbAt_of_gray (by omega), rgbAt_of_gray (by omega), single, double, Nat.mul_one,
    Nat.mul_comm i 2, values i inside]

theorem sameColors_of_tripled (size : a.size = b.size) (single : a.channels = 1)
    (triple : b.channels = 3)
    (values : ∀ i < a.pixelCount, ∀ k < 3, b.byteAt (3 * i + k) = a.byteAt i) :
    SameColors a b := by
  refine ⟨size, ?_⟩
  intro i inside
  have red : b.byteAt (3 * i) = a.byteAt i := values i inside 0 (by decide)
  rw [rgbAt_of_gray (by omega), rgbAt_of_color (by omega), single, triple, Nat.mul_one,
    Nat.mul_comm i 3, red, values i inside 1 (by decide), values i inside 2 (by decide)]
  rfl

end Layouts

section Uniform

variable {c : Rgb}

def Uniform (c : Rgb) (b : Buffer) : Prop := ∀ i < b.pixelCount, b.rgbAt i = c

theorem filled_uniform (size : Size) (c : Rgb) : (filled size c).Uniform c := by
  intro i inside
  have bytes (k : Nat) (channel : k < 3) : (filled size c).byteAt (i * 3 + k) = channelOf c k :=
    byteAt_tabulate _ _ _ inside channel
  rw [rgbAt_of_color (b := filled size c) (Nat.le_refl 3)]
  exact (Rgb.mk.injEq _ _ _ _ _ _).mpr
    ⟨bytes 0 (by decide), bytes 1 (by decide), bytes 2 (by decide)⟩

namespace Uniform

theorem rgbPixels (uniform : b.Uniform c) : b.rgbPixels = List.replicate b.pixelCount c := by
  rw [List.eq_replicate_iff]
  constructor
  · rw [Buffer.rgbPixels, List.length_map, List.length_range]
  · intro p listed
    rcases List.mem_map.mp listed with ⟨i, member, rfl⟩
    exact uniform i (List.mem_range.mp member)

theorem firstChannel (uniform : b.Uniform c) {x y : Nat} (column : x < b.size.width)
    (row : y < b.size.height) : b.firstChannel x y = c.red := by
  rw [firstChannel_eq_red, uniform _ (Size.index_lt column row)]

end Uniform

end Uniform

end ImageDigest.Buffer
