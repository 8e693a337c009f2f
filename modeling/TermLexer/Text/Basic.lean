/-!
# Texts

A text is the list of its code points, so every function on texts follows the list. Offsets into a
text count the bytes of its UTF-8 form; `byteSize` sums them without building that form, and
`length_utf8` says that the two agree.
-/

namespace TermLexer

/-- The code points of a text, in order. -/
abbrev Text := List Char

namespace Text

def utf8 (s : Text) : List UInt8 := s.flatMap String.utf8EncodeChar

/-- The number of bytes of the UTF-8 form. -/
def byteSize : Text → Nat
  | [] => 0
  | c :: cs => c.utf8Size + byteSize cs

@[simp] theorem byteSize_nil : byteSize [] = 0 := rfl

@[simp] theorem byteSize_cons (c : Char) (cs : Text) :
    byteSize (c :: cs) = c.utf8Size + byteSize cs := rfl

@[simp] theorem byteSize_append (a b : Text) :
    byteSize (a ++ b) = byteSize a + byteSize b := by
  induction a with
  | nil => simp
  | cons c cs ih => simp [ih, Nat.add_assoc]

@[simp] theorem utf8_nil : utf8 [] = [] := rfl

@[simp] theorem utf8_append (a b : Text) : utf8 (a ++ b) = utf8 a ++ utf8 b := by
  simp [utf8]

@[simp] theorem length_utf8 (s : Text) : (utf8 s).length = byteSize s := by
  induction s with
  | nil => rfl
  | cons c cs ih =>
    rw [byteSize_cons, ← ih]
    simp [utf8]

theorem length_le_byteSize (s : Text) : s.length ≤ byteSize s := by
  induction s with
  | nil => simp
  | cons c cs ih =>
    have := c.utf8Size_pos
    simp only [List.length_cons, byteSize_cons]
    omega

/-- Only the empty text has no bytes. -/
theorem byteSize_eq_zero {s : Text} : byteSize s = 0 ↔ s = [] := by
  constructor
  · intro h
    have := length_le_byteSize s
    exact List.eq_nil_of_length_eq_zero (by omega)
  · rintro rfl
    rfl

/-! ## Parts of a text -/

section Run

variable {p : Char → Bool}

theorem take_length_takeWhile (p : Char → Bool) (s : Text) :
    s.take (s.takeWhile p).length = s.takeWhile p :=
  (List.prefix_iff_eq_take.mp (List.takeWhile_prefix p)).symm

theorem drop_length_takeWhile (p : Char → Bool) (s : Text) :
    s.drop (s.takeWhile p).length = s.dropWhile p := by
  have h := List.take_append_drop (s.takeWhile p).length s
  rw [take_length_takeWhile] at h
  exact List.append_cancel_left (h.trans List.takeWhile_append_dropWhile.symm)

theorem forall_mem_takeWhile (p : Char → Bool) (s : Text) : ∀ c ∈ s.takeWhile p, p c = true :=
  fun c hc => List.all_eq_true.mp List.all_takeWhile c hc

theorem head?_dropWhile_fails (p : Char → Bool) (s : Text) :
    ∀ c ∈ (s.dropWhile p).head?, p c = false := by
  intro c hc
  have hhead := List.head?_dropWhile_not p s
  rw [hc] at hhead
  simpa using hhead

/-- A run ends where the test first fails. -/
theorem takeWhile_append {run after : Text} (hrun : ∀ c ∈ run, p c = true)
    (hafter : ∀ c ∈ after.head?, p c = false) : (run ++ after).takeWhile p = run := by
  rw [List.takeWhile_append_of_pos hrun]
  cases after with
  | nil => exact List.append_nil run
  | cons c cs =>
    have hc : ¬p c = true := Bool.eq_false_iff.mp (hafter c rfl)
    rw [List.takeWhile_cons_of_neg hc, List.append_nil]

end Run

/-- A code point of two parts lies in one of them. -/
theorem append_eq_append_cons {a b u v : Text} {c : Char} (h : a ++ b = u ++ c :: v) :
    (∃ w, a = u ++ c :: w ∧ v = w ++ b) ∨ ∃ w, u = a ++ w ∧ b = w ++ c :: v := by
  rcases List.append_eq_append_iff.mp h with ⟨w, hu, hb⟩ | ⟨w, ha, hv⟩
  · exact .inr ⟨w, hu, hb⟩
  · cases w with
    | nil => exact .inr ⟨[], by rw [ha, List.append_nil, List.append_nil], hv.symm⟩
    | cons d ds =>
      rw [List.cons_append, List.cons.injEq] at hv
      obtain ⟨rfl, hv⟩ := hv
      exact .inl ⟨ds, ha, hv⟩

end Text

end TermLexer
