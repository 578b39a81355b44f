import LightingDesk.Text.Utf8

/-!
# Text cut after a number of bytes

What `scan` finds in the bytes of a text that has been cut off: the characters that are left whole,
and one gap if the cut goes through a character.

    a character's bytes are scanned as that character       (scan_encodeChar)
    some but not all of them are scanned as one gap         (scan_take_encodeChar)
    so a cut text is read as the clipped text               (decodeLossy_take)
    and clipping it once more changes nothing               (clip_clip)
-/

namespace LightingDesk.Text.Utf8

/-! ## One character -/

/-- Bytes that can follow a first byte: the first of them between the given bounds and the others
between 0x80 and 0xbf. -/
def Follow (low high : Nat) : List UInt8 → Prop
  | [] => True
  | b :: rest => (low ≤ b.toNat ∧ b.toNat ≤ high) ∧ Follow 0x80 0xbf rest

theorem Follow.take {low high : Nat} {ts : List UInt8} (h : Follow low high ts) (n : Nat) :
    Follow low high (ts.take n) := by
  induction ts generalizing low high n with
  | nil => rw [List.take_nil]; trivial
  | cons t ts ih =>
    cases n with
    | zero => trivial
    | succ n => exact ⟨h.1, ih h.2 n⟩

theorem tails_append {low high : Nat} {ts : List UInt8} (h : Follow low high ts)
    (rest : List UInt8) : tails ts.length low high (ts ++ rest) = ts.map UInt8.toNat := by
  induction ts generalizing low high with
  | nil => rfl
  | cons t ts ih =>
    rw [List.length_cons, List.cons_append, tails, if_pos h.1, ih h.2]
    rfl

theorem tails_of_follow {low high n : Nat} {ts : List UInt8} (h : Follow low high ts)
    (hn : ts.length ≤ n) : tails n low high ts = ts.map UInt8.toNat := by
  induction ts generalizing low high n with
  | nil => cases n <;> rfl
  | cons t ts ih =>
    cases n with
    | zero => cases hn
    | succ n =>
      rw [tails, if_pos h.1, ih h.2 (Nat.le_of_succ_le_succ hn)]
      rfl

/-- How bytes spell a character. -/
inductive Spells (c : Char) : List UInt8 → Prop
  | single (b : UInt8) (first : lead b.toNat = .single) (value : b.toNat = c.toNat) :
      Spells c [b]
  | leads (b : UInt8) (ts : List UInt8) (bits low high : Nat)
      (first : lead b.toNat = .leads bits ts.length low high) (follow : Follow low high ts)
      (value : (ts.map UInt8.toNat).foldl (fun v t => v * 64 + (t - 0x80)) bits = c.toNat) :
      Spells c (b :: ts)

theorem toNat_toUInt8 {n : Nat} (h : n < 256) : n.toUInt8.toNat = n := UInt8.toNat_ofNat_of_lt' h

theorem scalar (c : Char) : c.toNat < 0xd800 ∨ 0xdfff < c.toNat ∧ c.toNat < 0x110000 := c.valid

/-- In front of two bytes. -/
theorem lead_two (bits : Nat) (h : 2 ≤ bits) (h' : bits < 32) :
    lead (0xc0 + bits) = .leads bits 1 0x80 0xbf := by
  rw [lead, if_neg (by omega), if_neg (by omega), if_pos (by omega), Nat.add_sub_cancel_left]

/-- In front of three bytes, the second is bounded so that no shorter spelling would do and that the
character is no surrogate. -/
theorem lead_three : ∀ bits < 16, lead (0xe0 + bits) =
    .leads bits 2 (if bits = 0 then 0xa0 else 0x80) (if bits = 0xd then 0x9f else 0xbf) := by
  decide

/-- In front of four bytes, the second is bounded so that no shorter spelling would do and that
there is such a character. -/
theorem lead_four : ∀ bits < 5, lead (0xf0 + bits) =
    .leads bits 3 (if bits = 0 then 0x90 else 0x80) (if bits = 4 then 0x8f else 0xbf) := by
  decide

theorem spells_encodeChar (c : Char) : Spells c (encodeChar c) := by
  have hs := scalar c
  unfold encodeChar
  generalize hv : c.toNat = v at hs
  dsimp only
  split
  · -- the character is a byte by itself
    rename_i h
    have hb : v.toUInt8.toNat = v := toNat_toUInt8 (by omega)
    refine .single _ ?_ (hb.trans hv.symm)
    rw [hb, lead, if_pos h]
  have last : (0x80 + v % 64).toUInt8.toNat = 0x80 + v % 64 := toNat_toUInt8 (by omega)
  have third : (0x80 + v / 64 % 64).toUInt8.toNat = 0x80 + v / 64 % 64 :=
    toNat_toUInt8 (by omega)
  have second : (0x80 + v / 4096 % 64).toUInt8.toNat = 0x80 + v / 4096 % 64 :=
    toNat_toUInt8 (by omega)
  split
  · have first : (0xc0 + v / 64).toUInt8.toNat = 0xc0 + v / 64 := toNat_toUInt8 (by omega)
    have hl := lead_two (v / 64) (by omega) (by omega)
    rw [← first] at hl
    refine .leads _ _ _ _ _ hl ?_ ?_
    · simp only [Follow, last, and_true]
      omega
    · simp only [List.map_cons, List.map_nil, List.foldl_cons, List.foldl_nil, last]
      omega
  split
  · have first : (0xe0 + v / 4096).toUInt8.toNat = 0xe0 + v / 4096 := toNat_toUInt8 (by omega)
    have hl := lead_three (v / 4096) (by omega)
    rw [← first] at hl
    refine .leads _ _ _ _ _ hl ?_ ?_
    · simp only [Follow, third, last, and_true]
      split <;> split <;> omega
    · simp only [List.map_cons, List.map_nil, List.foldl_cons, List.foldl_nil, third, last]
      omega
  · have first : (0xf0 + v / 262144).toUInt8.toNat = 0xf0 + v / 262144 :=
      toNat_toUInt8 (by omega)
    have hl := lead_four (v / 262144) (by omega)
    rw [← first] at hl
    refine .leads _ _ _ _ _ hl ?_ ?_
    · simp only [Follow, second, third, last, and_true]
      split <;> split <;> omega
    · simp only [List.map_cons, List.map_nil, List.foldl_cons, List.foldl_nil, second, third,
        last]
      omega

theorem scan_of_spells {c : Char} {bs : List UInt8} (h : Spells c bs) (rest : List UInt8) :
    scan (bs ++ rest) = some c :: scan rest := by
  cases h with
  | single b first value =>
    rw [List.singleton_append, scan, first, value, Char.ofNat_toNat]
  | leads b ts bits low high first follow value =>
    rw [List.cons_append, scan, first]
    dsimp only
    rw [tails_append follow, List.length_map, if_pos rfl, value, Char.ofNat_toNat,
      List.drop_left]

/-- A character that is cut short leaves one gap. -/
theorem scan_take_of_spells {c : Char} {bs : List UInt8} (h : Spells c bs) {n : Nat} (hn : 0 < n)
    (hlt : n < bs.length) : scan (bs.take n) = [none] := by
  cases h with
  | single b => cases Nat.lt_irrefl _ (Nat.lt_of_lt_of_le hlt hn)
  | leads b ts bits low high first follow value =>
    cases n with
    | zero => cases hn
    | succ n =>
      have hshort : n < ts.length := Nat.lt_of_succ_lt_succ hlt
      have hl : (ts.take n).length = n := List.length_take_of_le (Nat.le_of_lt hshort)
      have ht : tails ts.length low high (ts.take n) = (ts.take n).map UInt8.toNat :=
        tails_of_follow (follow.take n) (List.length_take_le' n ts)
      rw [List.take_succ_cons, scan, first]
      dsimp only
      rw [ht, List.length_map, hl, if_neg (Nat.ne_of_lt hshort), List.drop_take_self, scan]

theorem scan_encodeChar (c : Char) (rest : List UInt8) :
    scan (encodeChar c ++ rest) = some c :: scan rest :=
  scan_of_spells (spells_encodeChar c) rest

theorem scan_take_encodeChar {c : Char} {n : Nat} (hn : 0 < n) (hlt : n < (encodeChar c).length) :
    scan ((encodeChar c).take n) = [none] :=
  scan_take_of_spells (spells_encodeChar c) hn hlt

/-! ## Texts -/

/-- How many bytes some characters take. -/
def width (cs : List Char) : Nat := (cs.flatMap encodeChar).length

@[simp] theorem width_nil : width [] = 0 := rfl

@[simp] theorem width_cons (c : Char) (cs : List Char) :
    width (c :: cs) = (encodeChar c).length + width cs := by
  rw [width, List.flatMap_cons, List.length_append, width]

/-- The characters that a cut leaves whole. -/
def fit : Nat → List Char → List Char
  | _, [] => []
  | n, c :: rest =>
    if (encodeChar c).length ≤ n then c :: fit (n - (encodeChar c).length) rest else []

/-- The characters that are read after a cut: one that is cut through is read as U+FFFD. -/
def clip : Nat → List Char → List Char
  | _, [] => []
  | n, c :: rest =>
    if (encodeChar c).length ≤ n then c :: clip (n - (encodeChar c).length) rest
    else if n = 0 then [] else ['\ufffd']

/-- A cut goes through a character. -/
def Splits (n : Nat) (cs : List Char) : Prop :=
  ∃ before c after, cs = before ++ c :: after ∧ width before < n ∧ n < width (before ++ [c])

/-- The longest beginning of some characters that takes at most `n` bytes. -/
structure LongestFit (n : Nat) (cs whole : List Char) : Prop where
  begins : whole <+: cs
  fits : width whole ≤ n
  longest : ∀ other, other <+: cs → width other ≤ n → other <+: whole

/-- Characters as they are read after a cut: those that are left whole, and U+FFFD behind them
exactly if the cut goes through the next one. -/
structure Clipped (n : Nat) (cs read : List Char) : Prop where
  through : Splits n cs → ∃ whole, LongestFit n cs whole ∧ read = whole ++ ['\ufffd']
  between : ¬ Splits n cs → LongestFit n cs read

theorem longestFit_fit (n : Nat) (cs : List Char) : LongestFit n cs (fit n cs) := by
  induction cs generalizing n with
  | nil => exact ⟨List.nil_prefix, Nat.zero_le n, fun other h _ => h⟩
  | cons c rest ih =>
    rw [fit]
    split
    · rename_i h
      have hr := ih (n - (encodeChar c).length)
      refine ⟨List.cons_prefix_cons.2 ⟨rfl, hr.begins⟩, ?_, ?_⟩
      · have := hr.fits
        rw [width_cons]
        omega
      · intro other ho hw
        cases other with
        | nil => exact List.nil_prefix
        | cons o other =>
          obtain ⟨rfl, htail⟩ := List.cons_prefix_cons.1 ho
          rw [width_cons] at hw
          exact List.cons_prefix_cons.2 ⟨rfl, hr.longest other htail (by omega)⟩
    · rename_i h
      refine ⟨List.nil_prefix, Nat.zero_le n, ?_⟩
      intro other ho hw
      cases other with
      | nil => exact List.nil_prefix
      | cons o other =>
        obtain ⟨rfl, -⟩ := List.cons_prefix_cons.1 ho
        rw [width_cons] at hw
        omega

theorem not_splits_nil (n : Nat) : ¬ Splits n [] := by
  rintro ⟨before, c, after, h, -⟩
  cases before <;> cases h

theorem splits_cons_of_fits {n : Nat} {c : Char} {rest : List Char}
    (h : (encodeChar c).length ≤ n) :
    Splits n (c :: rest) ↔ Splits (n - (encodeChar c).length) rest := by
  constructor
  · rintro ⟨before, c', after, hc, hb, ha⟩
    cases before with
    | nil =>
      cases hc
      simp only [List.nil_append, width_cons, width_nil] at ha
      omega
    | cons b before =>
      cases hc
      simp only [List.cons_append, width_cons] at hb ha
      exact ⟨before, c', after, rfl, by omega, by omega⟩
  · rintro ⟨before, c', after, rfl, hb, ha⟩
    refine ⟨c :: before, c', after, rfl, ?_, ?_⟩
    · rw [width_cons]
      omega
    · rw [List.cons_append, width_cons]
      omega

theorem splits_cons_of_lt {n : Nat} {c : Char} {rest : List Char}
    (h : n < (encodeChar c).length) : Splits n (c :: rest) ↔ n ≠ 0 := by
  constructor
  · rintro ⟨before, c', after, -, hb, -⟩
    omega
  · intro hn
    refine ⟨[], c, rest, rfl, ?_, ?_⟩
    · rw [width_nil]
      omega
    · simpa using h

theorem clip_of_splits {n : Nat} {cs : List Char} (h : Splits n cs) :
    clip n cs = fit n cs ++ ['\ufffd'] := by
  induction cs generalizing n with
  | nil => exact absurd h (not_splits_nil n)
  | cons c rest ih =>
    rw [clip, fit]
    split
    · rename_i hc
      rw [ih ((splits_cons_of_fits hc).1 h)]
      rfl
    · rename_i hc
      rw [if_neg ((splits_cons_of_lt (by omega)).1 h)]
      rfl

theorem clip_of_not_splits {n : Nat} {cs : List Char} (h : ¬ Splits n cs) :
    clip n cs = fit n cs := by
  induction cs generalizing n with
  | nil => rfl
  | cons c rest ih =>
    rw [clip, fit]
    split
    · rename_i hc
      rw [ih (mt (splits_cons_of_fits hc).2 h)]
    · rename_i hc
      have hn : n = 0 :=
        Decidable.byContradiction fun hn => h ((splits_cons_of_lt (by omega)).2 hn)
      rw [if_pos hn]

theorem clipped_clip (n : Nat) (cs : List Char) : Clipped n cs (clip n cs) where
  through h := ⟨fit n cs, longestFit_fit n cs, clip_of_splits h⟩
  between h := by
    rw [clip_of_not_splits h]
    exact longestFit_fit n cs

/-- A cut in the middle of the second character. -/
example : clip 2 ['a', 'é', 'b'] = ['a', '\ufffd'] := by decide

theorem clip_of_fits {n : Nat} {cs : List Char} (h : width cs ≤ n) : clip n cs = cs := by
  induction cs generalizing n with
  | nil => rfl
  | cons c rest ih =>
    rw [width_cons] at h
    rw [clip, if_pos (by omega), ih (by omega)]

/-- What is read after a cut is read again after the same cut, also when U+FFFD has made it longer
than the cut allows. -/
theorem clip_clip (n : Nat) (cs : List Char) : clip n (clip n cs) = clip n cs := by
  induction cs generalizing n with
  | nil => rfl
  | cons c rest ih =>
    by_cases hc : (encodeChar c).length ≤ n
    · rw [clip, if_pos hc, clip, if_pos hc, ih]
    by_cases hn : n = 0
    · rw [clip, if_neg hc, if_pos hn]
      rfl
    · rw [clip, if_neg hc, if_neg hn, clip, if_neg hn]
      split <;> rfl

/-- A text that has been cut after `n` bytes is read as the clipped text. -/
theorem decodeLossy_take (s : String) (n : Nat) :
    decodeLossy ((encode s).take n) = String.ofList (clip n s.toList) := by
  unfold decodeLossy encode
  generalize s.toList = cs
  refine congrArg String.ofList ?_
  induction cs generalizing n with
  | nil => rw [List.flatMap_nil, List.take_nil, scan]; rfl
  | cons c rest ih =>
    rw [List.flatMap_cons, clip]
    split
    · rename_i hc
      rw [List.take_append, List.take_of_length_le hc, scan_encodeChar, List.map_cons, ih]
      rfl
    · rename_i hc
      rw [List.take_append_of_le_length (by omega)]
      split
      · rename_i hn
        rw [hn, List.take_zero, scan]
        rfl
      · rw [scan_take_encodeChar (by omega) (by omega)]
        rfl

end LightingDesk.Text.Utf8
