import Mathlib.Data.String.Basic
import VtableMerge.Proofs.Utf8Decoding

/-!
The order of texts is the order of their bytes. The first byte of a character tells its length,
and longer characters start with larger bytes and have larger code points; among characters of
one length the payloads count from the first byte on.
-/
namespace VtableMerge.Utf8

/-- Of two numbers below a limit the smaller one has the smaller bytes, whatever follows them. -/
def KeepsOrder (limit : Nat) (bytes : Nat → List UInt8) : Prop :=
  ∀ n m, n < m → m < limit → ∀ x y, bytes n ++ x < bytes m ++ y

theorem lt_of_first {a b : UInt8} (h : a < b) (x y : List UInt8) : a :: x < b :: y :=
  List.cons_lt_cons_iff.mpr (.inl h)

theorem ofNat_add_lt {n m base : Nat} (h : n < m) (hm : m + base < 256) :
    UInt8.ofNat (n + base) < UInt8.ofNat (m + base) := by
  rw [ofNat_lt_iff (by omega) (toNat_ofNat_of_lt hm)]
  omega

theorem keepsOrder_first {limit base : Nat} (hlimit : limit + base ≤ 256) :
    KeepsOrder limit fun n => [UInt8.ofNat (n + base)] :=
  fun _ _ hlt hm => lt_of_first (ofNat_add_lt hlt (by omega))

/-- One more byte takes the lowest digit in base 64. -/
theorem KeepsOrder.next {limit : Nat} {bytes : Nat → List UInt8} (h : KeepsOrder limit bytes) :
    KeepsOrder (limit * 64) fun n => bytes (n / 64) ++ [UInt8.ofNat (n % 64 + 0x80)] := by
  intro n m hlt hm x y
  simp only [List.append_assoc, List.singleton_append]
  by_cases hhigh : n / 64 < m / 64
  · exact h _ _ hhigh (by omega) _ _
  · have hsame : n / 64 = m / 64 := by omega
    rw [hsame]
    exact List.append_left_lt (lt_of_first (ofNat_add_lt (by omega) (by omega)) x y)

/-- A first byte that holds the highest digits, and bytes with a digit in base 64 each. -/
def tailed (base : Nat) : Nat → Nat → List UInt8
  | 0, n => [UInt8.ofNat (n + base)]
  | k + 1, n => tailed base k (n / 64) ++ [UInt8.ofNat (n % 64 + 0x80)]

theorem keepsOrder_tailed {limit base : Nat} (hlimit : limit + base ≤ 256) (k : Nat) :
    KeepsOrder (limit * 64 ^ k) (tailed base k) := by
  induction k with
  | zero =>
    rw [Nat.pow_zero, Nat.mul_one]
    exact keepsOrder_first hlimit
  | succ k ih =>
    rw [Nat.pow_succ, ← Nat.mul_assoc]
    exact ih.next

/-- The length of a character's bytes is a matter of its code point, and so is the base of the
first byte. -/
inductive Length : Nat → Nat → Nat → Prop
  | one {n : Nat} (hn : n < 0x80) : Length n 0 0
  | two {n : Nat} (hlow : 0x80 ≤ n) (hn : n < 0x800) : Length n 0xC0 1
  | three {n : Nat} (hlow : 0x800 ≤ n) (hn : n < 0x10000) : Length n 0xE0 2
  | four {n : Nat} (hlow : 0x10000 ≤ n) (hn : n < 0x110000) : Length n 0xF0 3

theorem exists_length (c : Char) : ∃ base k, Length c.toNat base k ∧
    String.utf8EncodeChar c = tailed base k c.toNat := by
  have hcode : c.val.toNat = c.toNat := rfl
  have hmax : c.toNat < 0x110000 := by
    rcases c.valid with hless | ⟨-, hless⟩
    · change c.toNat < 0xD800 at hless
      omega
    · exact hless
  rw [String.utf8EncodeChar, hcode]
  split
  · next h1 => exact ⟨0, 0, .one (by omega), rfl⟩
  split
  · next h1 h2 =>
    have hfirst : c.toNat / 64 % 32 = c.toNat / 64 := by omega
    refine ⟨0xC0, 1, .two (by omega) (by omega), ?_⟩
    rw [hfirst]
    rfl
  split
  · next h1 h2 h3 =>
    have hfirst : c.toNat / 4096 % 16 = c.toNat / 64 / 64 := by omega
    refine ⟨0xE0, 2, .three (by omega) (by omega), ?_⟩
    rw [hfirst]
    rfl
  · next h1 h2 h3 =>
    have hfirst : c.toNat / 262144 % 8 = c.toNat / 64 / 64 / 64 := by omega
    have hsecond : c.toNat / 4096 % 64 = c.toNat / 64 / 64 % 64 := by omega
    refine ⟨0xF0, 3, .four (by omega) (by omega), ?_⟩
    rw [hfirst, hsecond]
    rfl

/-- The first byte. -/
theorem exists_tailed_eq_cons (base k n : Nat) :
    ∃ tail, tailed base k n = UInt8.ofNat (n / 64 ^ k + base) :: tail := by
  induction k generalizing n with
  | zero => exact ⟨[], by simp [tailed]⟩
  | succ k ih =>
    obtain ⟨tail, htail⟩ := ih (n / 64)
    refine ⟨tail ++ [UInt8.ofNat (n % 64 + 0x80)], ?_⟩
    rw [tailed, htail, Nat.div_div_eq_div_mul, Nat.mul_comm, ← Nat.pow_succ]
    rfl

/-- The highest digits fit into the first byte. -/
theorem Length.exists_limit {n base k : Nat} (h : Length n base k) :
    ∃ limit, limit + base ≤ 256 ∧ n < limit * 64 ^ k := by
  cases h with
  | one hn => exact ⟨0x80, by decide, by omega⟩
  | two _ hn => exact ⟨0x20, by decide, by omega⟩
  | three _ hn => exact ⟨0x10, by decide, by omega⟩
  | four _ hn => exact ⟨5, by decide, by omega⟩

/-- Larger code points have no shorter bytes, and longer ones have larger first bytes. -/
theorem Length.eq_or_lt {n m base base' k k' : Nat} (hn : Length n base k)
    (hm : Length m base' k') (hlt : n < m) :
    (base = base' ∧ k = k') ∨ n / 64 ^ k + base < m / 64 ^ k' + base' := by
  cases hn with
  | one hn =>
    cases hm with
    | one => exact .inl ⟨rfl, rfl⟩
    | _ => exact .inr (by omega)
  | two hlow hn =>
    cases hm with
    | one => omega
    | two => exact .inl ⟨rfl, rfl⟩
    | _ => exact .inr (by omega)
  | three hlow hn =>
    cases hm with
    | one => omega
    | two => omega
    | three => exact .inl ⟨rfl, rfl⟩
    | four => exact .inr (by omega)
  | four hlow hn =>
    cases hm with
    | four => exact .inl ⟨rfl, rfl⟩
    | _ => omega

theorem utf8EncodeChar_lt {c d : Char} (h : c < d) (x y : List UInt8) :
    String.utf8EncodeChar c ++ x < String.utf8EncodeChar d ++ y := by
  have hlt : c.toNat < d.toNat := h
  obtain ⟨base, k, hc, hcbytes⟩ := exists_length c
  obtain ⟨base', k', hd, hdbytes⟩ := exists_length d
  obtain ⟨limit, hlimit, hdlimit⟩ := hd.exists_limit
  rw [hcbytes, hdbytes]
  rcases hc.eq_or_lt hd hlt with ⟨rfl, rfl⟩ | hfirst
  · exact keepsOrder_tailed hlimit k _ _ hlt hdlimit x y
  · obtain ⟨tail, htail⟩ := exists_tailed_eq_cons base k c.toNat
    obtain ⟨tail', htail'⟩ := exists_tailed_eq_cons base' k' d.toNat
    have hdigit : d.toNat / 64 ^ k' < limit := Nat.div_lt_of_lt_mul (by rwa [Nat.mul_comm])
    rw [htail, htail']
    refine lt_of_first ?_ _ _
    rw [ofNat_lt_iff (by omega) (toNat_ofNat_of_lt (by omega))]
    exact hfirst

theorem encode_lt {cs ds : List Char} (h : cs < ds) : encode cs < encode ds := by
  induction h with
  | @nil d ds =>
    obtain ⟨a, tail, hbytes, -⟩ := exists_leading? d
    rw [encode, encode, List.flatMap_cons, hbytes]
    exact List.nil_lt_cons _ _
  | cons _ ih => exact List.append_left_lt ih
  | rel hlt => exact utf8EncodeChar_lt hlt _ _

/-- The bytes of texts are ordered as the texts are. -/
theorem encodeString_lt_iff {a b : String} : encodeString a < encodeString b ↔ a < b := by
  constructor
  · intro h
    rcases lt_trichotomy a b with hlt | rfl | hgt
    · exact hlt
    · exact absurd h (List.lt_irrefl _)
    · exact absurd h (List.lt_asymm (encode_lt (String.lt_iff_toList_lt.mp hgt)))
  · exact fun h => encode_lt (String.lt_iff_toList_lt.mp h)

end VtableMerge.Utf8
