import Mathlib.Data.List.Basic
import VtableMerge.Text.Utf8

/-!
The bytes of a text are read as its characters. The first byte of a character tells how many
belong to it, and the payloads of the bytes make up the code point.
-/
namespace VtableMerge.Utf8

theorem toNat_ofNat_of_lt {n : Nat} (hn : n < 256) : (UInt8.ofNat n).toNat = n := by
  rw [UInt8.toNat_ofNat']
  omega

theorem ofNat_lt_iff {n limit : Nat} {b : UInt8} (hn : n < 256) (hlimit : b.toNat = limit) :
    UInt8.ofNat n < b ↔ n < limit := by
  rw [UInt8.lt_iff_toNat_lt, toNat_ofNat_of_lt hn, hlimit]

/-- A byte that starts a longer character is not below the bounds of the shorter ones. -/
theorem not_ofNat_add_lt {n base : Nat} {b : UInt8} (hn : n + base < 256) (hb : b.toNat ≤ base) :
    ¬ UInt8.ofNat (n + base) < b := by
  rw [ofNat_lt_iff hn rfl]
  omega

theorem tail?_ofNat {n : Nat} (hn : n < 64) : tail? (UInt8.ofNat (n + 0x80)) = some n := by
  have hlow : (0x80 : UInt8) ≤ UInt8.ofNat (n + 0x80) := by
    rw [UInt8.le_iff_toNat_le, toNat_ofNat_of_lt (by omega)]
    exact Nat.le_add_left _ _
  have hhigh : UInt8.ofNat (n + 0x80) ≤ 0xBF := by
    rw [UInt8.le_iff_toNat_le, toNat_ofNat_of_lt (by omega)]
    change n + 0x80 ≤ 0xBF
    omega
  rw [tail?, if_pos (by simp only [hlow, hhigh, decide_true, Bool.and_self]),
    toNat_ofNat_of_lt (by omega), Nat.add_sub_cancel]

/-- The code points of characters are all but the surrogates. -/
theorem charIn?_toNat {low high : Nat} {c : Char} (hlow : low ≤ c.toNat) (hhigh : c.toNat ≤ high) :
    charIn? low high c.toNat = some c := by
  have hvalid : ¬ (0xD800 ≤ c.toNat ∧ c.toNat ≤ 0xDFFF) := by
    rcases c.valid with hless | ⟨hmore, -⟩
    · change c.toNat < 0xD800 at hless
      omega
    · change 0xDFFF < c.toNat at hmore
      omega
  rw [charIn?, if_pos ?_, Char.ofNat_toNat]
  simp only [hlow, hhigh, decide_true, Bool.and_self, Bool.true_and, Bool.not_eq_true',
    Bool.and_eq_false_iff, decide_eq_false_iff_not]
  omega

section Lengths
variable (rest : List UInt8) {n x y z : Nat}

theorem leading?_one (hn : n < 0x80) :
    leading? (UInt8.ofNat n) rest = some (Char.ofNat n, 0) := by
  unfold leading?
  rw [if_pos ((ofNat_lt_iff (by omega) rfl).mpr hn), toNat_ofNat_of_lt (by omega)]

theorem leading?_two (hn : n < 0x20) (hx : x < 64) :
    leading? (UInt8.ofNat (n + 0xC0)) (UInt8.ofNat (x + 0x80) :: rest) =
      (charIn? 0x80 0x7FF (n * 64 + x)).map fun c => (c, 1) := by
  have hbyte : n + 0xC0 < 256 := by omega
  have hlow : UInt8.ofNat (n + 0xC0) < 0xE0 :=
    (ofNat_lt_iff hbyte rfl).mpr (Nat.add_lt_add_right hn _)
  rw [leading?, if_neg (not_ofNat_add_lt hbyte (by decide)),
    if_neg (not_ofNat_add_lt hbyte (by decide)), if_pos hlow, toNat_ofNat_of_lt hbyte,
    Nat.add_sub_cancel]
  simp only [tail?_ofNat hx, bind, Option.bind_some]
  cases charIn? 0x80 0x7FF (n * 64 + x) <;> rfl

theorem leading?_three (hn : n < 0x10) (hx : x < 64) (hy : y < 64) :
    leading? (UInt8.ofNat (n + 0xE0))
        (UInt8.ofNat (x + 0x80) :: UInt8.ofNat (y + 0x80) :: rest) =
      (charIn? 0x800 0xFFFF ((n * 64 + x) * 64 + y)).map fun c => (c, 2) := by
  have hbyte : n + 0xE0 < 256 := by omega
  have hlow : UInt8.ofNat (n + 0xE0) < 0xF0 :=
    (ofNat_lt_iff hbyte rfl).mpr (Nat.add_lt_add_right hn _)
  rw [leading?, if_neg (not_ofNat_add_lt hbyte (by decide)),
    if_neg (not_ofNat_add_lt hbyte (by decide)), if_neg (not_ofNat_add_lt hbyte (by decide)),
    if_pos hlow, toNat_ofNat_of_lt hbyte, Nat.add_sub_cancel]
  simp only [tail?_ofNat hx, tail?_ofNat hy, bind, Option.bind_some]
  cases charIn? 0x800 0xFFFF ((n * 64 + x) * 64 + y) <;> rfl

theorem leading?_four (hn : n < 8) (hx : x < 64) (hy : y < 64) (hz : z < 64) :
    leading? (UInt8.ofNat (n + 0xF0))
        (UInt8.ofNat (x + 0x80) :: UInt8.ofNat (y + 0x80) :: UInt8.ofNat (z + 0x80) :: rest) =
      (charIn? 0x10000 0x10FFFF (((n * 64 + x) * 64 + y) * 64 + z)).map fun c => (c, 3) := by
  have hbyte : n + 0xF0 < 256 := by omega
  have hlow : UInt8.ofNat (n + 0xF0) < 0xF8 :=
    (ofNat_lt_iff hbyte rfl).mpr (Nat.add_lt_add_right hn _)
  rw [leading?, if_neg (not_ofNat_add_lt hbyte (by decide)),
    if_neg (not_ofNat_add_lt hbyte (by decide)), if_neg (not_ofNat_add_lt hbyte (by decide)),
    if_neg (not_ofNat_add_lt hbyte (by decide)), if_pos hlow, toNat_ofNat_of_lt hbyte,
    Nat.add_sub_cancel]
  simp only [tail?_ofNat hx, tail?_ofNat hy, tail?_ofNat hz, bind, Option.bind_some]
  cases charIn? 0x10000 0x10FFFF (((n * 64 + x) * 64 + y) * 64 + z) <;> rfl

end Lengths

/-- A character is read from its own bytes, whatever follows them. -/
theorem exists_leading? (c : Char) : ∃ a tail, String.utf8EncodeChar c = a :: tail ∧
    ∀ rest, leading? a (tail ++ rest) = some (c, tail.length) := by
  have hcode : c.val.toNat = c.toNat := rfl
  have hmax : c.toNat ≤ 0x10FFFF := by
    rcases c.valid with hless | ⟨-, hless⟩
    · change c.toNat < 0xD800 at hless
      omega
    · change c.toNat < 0x110000 at hless
      omega
  rw [String.utf8EncodeChar, hcode]
  split
  · next h1 =>
    refine ⟨_, _, rfl, fun rest => ?_⟩
    rw [leading?_one _ (by omega), Char.ofNat_toNat]
    rfl
  split
  · next h1 h2 =>
    refine ⟨_, _, rfl, fun rest => ?_⟩
    have hsum : c.toNat / 64 % 32 * 64 + c.toNat % 64 = c.toNat := by omega
    rw [List.singleton_append, leading?_two _ (by omega) (by omega), hsum,
      charIn?_toNat (by omega) h2]
    rfl
  split
  · next h1 h2 h3 =>
    refine ⟨_, _, rfl, fun rest => ?_⟩
    have hsum : (c.toNat / 4096 % 16 * 64 + c.toNat / 64 % 64) * 64 + c.toNat % 64 = c.toNat := by
      omega
    rw [List.cons_append, List.singleton_append,
      leading?_three _ (by omega) (by omega) (by omega), hsum, charIn?_toNat (by omega) h3]
    rfl
  · next h1 h2 h3 =>
    refine ⟨_, _, rfl, fun rest => ?_⟩
    have hsum : ((c.toNat / 262144 % 8 * 64 + c.toNat / 4096 % 64) * 64 + c.toNat / 64 % 64) * 64 +
        c.toNat % 64 = c.toNat := by
      omega
    rw [List.cons_append, List.cons_append, List.singleton_append,
      leading?_four _ (by omega) (by omega) (by omega) (by omega), hsum,
      charIn?_toNat (by omega) hmax]
    rfl

theorem symbolsFrom_skip (read : List Symbol) (tail rest : List UInt8) :
    symbolsFrom read tail.length (tail ++ rest) = symbolsFrom read 0 rest := by
  induction tail with
  | nil => rfl
  | cons b tail ih => exact ih

theorem symbolsFrom_encode (cs : List Char) (read : List Symbol) :
    symbolsFrom read 0 (encode cs) = read.reverse ++ cs.map some := by
  induction cs generalizing read with
  | nil => simp [encode, symbolsFrom]
  | cons c cs ih =>
    obtain ⟨a, tail, hbytes, hread⟩ := exists_leading? c
    have hencode : encode (c :: cs) = a :: (tail ++ encode cs) := by
      rw [encode, List.flatMap_cons, hbytes, List.cons_append]
      rfl
    rw [hencode, symbolsFrom, hread]
    dsimp only
    rw [symbolsFrom_skip, ih, List.reverse_cons, List.append_assoc, List.singleton_append,
      List.map_cons]

/-- The bytes of a text are read without a hole. -/
theorem symbols_encode (cs : List Char) : symbols (encode cs) = cs.map some := by
  rw [symbols, symbolsFrom_encode, List.reverse_nil, List.nil_append]

end VtableMerge.Utf8
