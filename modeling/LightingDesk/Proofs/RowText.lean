import LightingDesk.Scene.Rows

/-!
# Rows there and back

Rows that have been written are read as they were.  The reader goes through a list of items, be it
the numbers of a row or the rows themselves, in the same way: each item takes it from one spot to
the next, whether a comma follows or the end of the list.

    a number is read as the byte that it was written for      (foldlM_digits)
    items are read one after the other                        (foldlM_items)
    what has been written is read back                        (read?_render)
-/

namespace LightingDesk.Rows

namespace Reader

variable {α : Type}

/-! ## Numbers -/

/-- Where a number leaves the reader. -/
def numberSpot (n : Nat) : Spot := if n = 0 then .afterZero else .inNumber n

/-- Whether the reader stands where a number can begin. -/
def AwaitsNumber (r : Reader) : Prop := r.spot = .rowOpen ∨ r.spot = .numberDue

theorem digit?_digitChar {d : Nat} (h : d < 10) : digit? d.digitChar = some d := by
  have all : ∀ d : Fin 10, digit? d.val.digitChar = some d.val := by decide
  exact all ⟨d, h⟩

theorem isBlank_digitChar {d : Nat} (h : d < 10) :
    isBlank d.digitChar = false ∧ d.digitChar ≠ ']' := by
  have all : ∀ d : Fin 10, isBlank d.val.digitChar = false ∧ d.val.digitChar ≠ ']' := by decide
  exact all ⟨d, h⟩

theorem step_first {r : Reader} (hr : r.AwaitsNumber) {d : Nat} (h : d < 10) :
    r.step d.digitChar = some (r.goTo (numberSpot d)) := by
  obtain ⟨hb, hc⟩ := isBlank_digitChar h
  have hbegin : r.begin? d.digitChar = some (r.goTo (numberSpot d)) := by
    rw [begin?, digit?_digitChar h]
    cases d <;> rfl
  rcases hr with hr | hr <;> simp [step, hr, hb, hc, hbegin]

theorem step_digit {r : Reader} {n d : Nat} (hr : r.spot = .inNumber n) (h : d < 10)
    (hn : n * 10 + d < 256) : r.step d.digitChar = some (r.goTo (.inNumber (n * 10 + d))) := by
  simp [step, hr, digit?_digitChar h, hn]

/-- By induction on the number without its last digit. -/
theorem foldlM_toDigits {r : Reader} (hr : r.AwaitsNumber) (n : Nat) (hn : n < 256) :
    (Nat.toDigits 10 n).foldlM step r = some (r.goTo (numberSpot n)) := by
  induction n using Nat.strongRecOn with
  | ind n ih =>
    by_cases h : n < 10
    · rw [Nat.toDigits_of_lt_base h, List.foldlM_cons, step_first hr h]
      rfl
    · have hten : 10 ≤ n := Nat.le_of_not_lt h
      have hq : numberSpot (n / 10) = .inNumber (n / 10) := if_neg (by omega)
      have hlast : n / 10 * 10 + n % 10 = n := by omega
      have hd := step_digit (r := r.goTo (.inNumber (n / 10))) rfl
        (Nat.mod_lt n (by omega : 0 < 10)) (by omega)
      rw [hlast] at hd
      rw [Nat.toDigits_of_base_le (by omega) hten, List.foldlM_append,
        ih (n / 10) (by omega) (by omega), hq, Option.bind_eq_bind, Option.bind_some,
        List.foldlM_cons, hd, numberSpot, if_neg (by omega)]
      rfl

theorem foldlM_digits {r : Reader} (hr : r.AwaitsNumber) (b : UInt8) :
    (digits b).foldlM step r = some (r.goTo (numberSpot b.toNat)) :=
  foldlM_toDigits hr b.toNat b.toNat_lt

theorem step_comma {r : Reader} {b : UInt8} (hr : r.spot = numberSpot b.toNat) :
    r.step ',' = some ⟨.numberDue, b :: r.row, r.rows⟩ := by
  have hd : digit? ',' = none := rfl
  by_cases hb : b.toNat = 0
  · have h0 : b = 0 := UInt8.toNat_inj.1 hb
    rw [numberSpot, if_pos hb] at hr
    subst h0
    simp [step, hr, goOn?, isBlank, keep, goTo]
  · rw [numberSpot, if_neg hb] at hr
    simp [step, hr, hd, goOn?, isBlank, keep, goTo]

theorem step_bracket {r : Reader} {b : UInt8} (hr : r.spot = numberSpot b.toNat) :
    r.step ']' = some ⟨.afterRow, [], (b :: r.row).reverse :: r.rows⟩ := by
  have hd : digit? ']' = none := rfl
  by_cases hb : b.toNat = 0
  · have h0 : b = 0 := UInt8.toNat_inj.1 hb
    rw [numberSpot, if_pos hb] at hr
    subst h0
    simp [step, hr, goOn?, isBlank, keep]
  · rw [numberSpot, if_neg hb] at hr
    simp [step, hr, hd, goOn?, isBlank, keep]

/-! ## Lists -/

/-- Items are read one after the other: `due` is where the reader stands in front of an item and
`closed` is where the closing bracket leaves it, both with the items so far, newest first. -/
theorem foldlM_items {item : α → List Char} {due closed : List α → Reader}
    (next : ∀ done x, (item x ++ [',']).foldlM step (due done) = some (due (x :: done)))
    (last : ∀ done x, (item x ++ [']']).foldlM step (due done) = some (closed (x :: done)))
    (x : α) (xs done : List α) :
    ((((x :: xs).map item).intersperse [',']).flatten ++ [']']).foldlM step (due done) =
      some (closed ((x :: xs).reverse ++ done)) := by
  induction xs generalizing x done with
  | nil =>
    have hl := last done x
    simpa using hl
  | cons y ys ih =>
    have hn := next done x
    have hr := ih y (x :: done)
    rw [List.map_cons] at hr
    rw [List.map_cons, List.map_cons, List.intersperse_cons_cons, List.flatten_cons,
      List.flatten_cons, ← List.append_assoc (item x), List.append_assoc (item x ++ [',']),
      List.foldlM_append, hn, Option.bind_eq_bind, Option.bind_some, hr]
    simp

/-- Items that can be read from where a list opens as well as from where an item is due. -/
theorem foldlM_bracketed (item : α → List Char) {r : Reader} (opened : Reader)
    (due closed : List α → Reader) (hopen : r.step '[' = some opened)
    (hclose : opened.step ']' = some (closed []))
    (hfirst : ∀ x, (item x).foldlM step opened = (item x).foldlM step (due []))
    (next : ∀ done x, (item x ++ [',']).foldlM step (due done) = some (due (x :: done)))
    (last : ∀ done x, (item x ++ [']']).foldlM step (due done) = some (closed (x :: done)))
    (xs : List α) : (bracketed (xs.map item)).foldlM step r = some (closed xs.reverse) := by
  rw [bracketed, List.cons_append, List.foldlM_cons, hopen, Option.bind_eq_bind, Option.bind_some]
  cases xs with
  | nil =>
    rw [List.map_nil, List.intersperse_nil, List.flatten_nil, List.nil_append, List.foldlM_cons,
      hclose]
    rfl
  | cons x xs =>
    obtain ⟨tail, ht⟩ : ∃ tail, (((x :: xs).map item).intersperse [',']).flatten ++ [']'] =
        item x ++ tail := by
      cases xs with
      | nil => exact ⟨[']'], by simp⟩
      | cons y ys => exact ⟨_, by simp [List.intersperse_cons_cons]; rfl⟩
    have hall := foldlM_items next last x xs []
    rw [List.append_nil] at hall
    rw [ht, List.foldlM_append] at hall ⊢
    rw [hfirst]
    exact hall

/-- A row is read from where one can begin. -/
theorem foldlM_row {r : Reader} (hr : r.spot = .listOpen ∨ r.spot = .rowDue) (hrow : r.row = [])
    (row : List UInt8) :
    (bracketed (row.map digits)).foldlM step r = some ⟨.afterRow, [], row :: r.rows⟩ := by
  have hnumber : ∀ (r : Reader) (b : UInt8) (c : Char), r.AwaitsNumber →
      (digits b ++ [c]).foldlM step r = (r.goTo (numberSpot b.toNat)).step c := by
    intro r b c h
    rw [List.foldlM_append, foldlM_digits h, Option.bind_eq_bind, Option.bind_some,
      List.foldlM_cons]
    cases (r.goTo (numberSpot b.toNat)).step c <;> rfl
  have hall := foldlM_bracketed digits (r := r) ⟨.rowOpen, [], r.rows⟩
    (fun done => ⟨.numberDue, done, r.rows⟩)
    (fun done => ⟨.afterRow, [], done.reverse :: r.rows⟩) ?_ rfl ?_ ?_ ?_ row
  · rw [List.reverse_reverse] at hall
    exact hall
  · rcases hr with hr | hr <;> simp [step, hr, isBlank, goTo, hrow]
  · intro b
    rw [foldlM_digits (.inl rfl), foldlM_digits (.inr rfl)]
    rfl
  · intro done b
    rw [hnumber _ b ',' (.inr rfl)]
    exact step_comma rfl
  · intro done b
    rw [hnumber _ b ']' (.inr rfl)]
    exact step_bracket rfl

theorem foldlM_rows (rows : List (List UInt8)) :
    (bracketed (rows.map fun row => bracketed (row.map digits))).foldlM step start =
      some ⟨.closed, [], rows.reverse⟩ := by
  have hrow : ∀ (done : List (List UInt8)) (row : List UInt8) (c : Char),
      (bracketed (row.map digits) ++ [c]).foldlM step ⟨.rowDue, [], done⟩ =
        step ⟨.afterRow, [], row :: done⟩ c := by
    intro done row c
    rw [List.foldlM_append, foldlM_row (.inr rfl) rfl, Option.bind_eq_bind, Option.bind_some,
      List.foldlM_cons]
    cases step ⟨.afterRow, [], row :: done⟩ c <;> rfl
  refine foldlM_bracketed _ ⟨.listOpen, [], []⟩ (fun done => ⟨.rowDue, [], done⟩)
    (fun done => ⟨.closed, [], done⟩) rfl rfl ?_ ?_ ?_ rows
  · intro row
    rw [foldlM_row (.inl rfl) rfl, foldlM_row (.inr rfl) rfl]
  · exact fun done row => hrow done row ','
  · exact fun done row => hrow done row ']'

end Reader

/-- Rows that have been written are read as they were. -/
theorem read?_render (rows : List (List UInt8)) : read? (render rows) = some rows := by
  rw [read?, render, String.toList_ofList, Reader.foldlM_rows]
  exact congrArg some rows.reverse_reverse

end LightingDesk.Rows
