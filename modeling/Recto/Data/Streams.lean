import Mathlib.Tactic

/-!
# Streams that come in chunks

A reader gets what a stream holds in chunks of any size, and a read of at most
so many items gives what the first chunk has of them. Reading an exact number of
items in a loop does not depend on the chunks, only on what they hold together.
-/

namespace Recto

variable {α : Type}

/-- `recv(n)`: at most `n` items, and none once the stream is over. -/
def recv (n : ℕ) : List (List α) → List α × List (List α)
  | [] => ([], [])
  | [] :: chunks => recv n chunks
  | (a :: chunk) :: chunks => ((a :: chunk).take n, (a :: chunk).drop n :: chunks)

/-- The loop that reads until the buffer has `n` items, which takes `n` rounds at most. -/
def readLoop (n : ℕ) : ℕ → List α → List (List α) → Except ℕ (List α) × List (List α)
  | 0, buf, chunks => (.ok buf, chunks)
  | rounds + 1, buf, chunks =>
    if buf.length < n then
      match recv (n - buf.length) chunks with
      | ([], rest) => (.error buf.length, rest)
      | (a :: chunk, rest) => readLoop n rounds (buf ++ a :: chunk) rest
    else (.ok buf, chunks)

/-- `n` items of a stream, or how many there were. -/
def readExact (n : ℕ) (chunks : List (List α)) : Except ℕ (List α) × List (List α) :=
  readLoop n n [] chunks

theorem flatten_recv (n : ℕ) (chunks : List (List α)) :
    (recv n chunks).1 ++ (recv n chunks).2.flatten = chunks.flatten := by
  induction chunks with
  | nil => rfl
  | cons chunk chunks ih =>
    cases chunk with
    | nil => simpa [recv] using ih
    | cons a chunk => rw [recv, List.flatten_cons, ← List.append_assoc, List.take_append_drop,
        List.flatten_cons]

theorem length_recv_le (n : ℕ) (chunks : List (List α)) : (recv n chunks).1.length ≤ n := by
  induction chunks with
  | nil => exact Nat.zero_le n
  | cons chunk chunks ih =>
    cases chunk with
    | nil => exact ih
    | cons a chunk => exact List.length_take_le n _

theorem recv_eq_nil {n : ℕ} (hn : 0 < n) (chunks : List (List α)) (h : (recv n chunks).1 = []) :
    chunks.flatten = [] := by
  induction chunks with
  | nil => rfl
  | cons chunk chunks ih =>
    cases chunk with
    | nil => simpa using ih h
    | cons a chunk =>
      obtain ⟨k, rfl⟩ := Nat.exists_eq_succ_of_ne_zero hn.ne'
      cases h

theorem readLoop_full {n : ℕ} {buf : List α} (h : n ≤ buf.length) (rounds : ℕ) (chunks : List (List α)) :
    readLoop n rounds buf chunks = (.ok buf, chunks) := by
  cases rounds with
  | zero => rfl
  | succ rounds => rw [readLoop, if_neg (by omega)]

/-- A round that does not find the stream over adds the first of what is still to come. -/
theorem readLoop_succ {n : ℕ} (rounds : ℕ) {buf : List α} (chunks : List (List α))
    (h : buf.length < n) :
    (chunks.flatten = [] ∧
      ∃ rest, readLoop n (rounds + 1) buf chunks = (.error buf.length, rest) ∧ rest.flatten = []) ∨
    ∃ got rest, got ≠ [] ∧ buf.length + got.length ≤ n ∧ chunks.flatten = got ++ rest.flatten ∧
      readLoop n (rounds + 1) buf chunks = readLoop n rounds (buf ++ got) rest := by
  have hflatten := flatten_recv (n - buf.length) chunks
  have hle := length_recv_le (n - buf.length) chunks
  have hnil := recv_eq_nil (n := n - buf.length) (by omega) chunks
  rw [readLoop, if_pos h]
  rcases hrecv : recv (n - buf.length) chunks with ⟨_ | ⟨a, chunk⟩, rest⟩
  · rw [hrecv] at hnil hflatten
    have hover := hnil rfl
    rw [hover] at hflatten
    exact .inl ⟨hover, rest, rfl, by simpa using hflatten⟩
  · rw [hrecv] at hflatten hle
    have hgot : (a :: chunk).length ≤ n - buf.length := hle
    exact .inr ⟨a :: chunk, rest, List.cons_ne_nil a chunk, by omega, hflatten.symm, rfl⟩

/-- A stream that holds too little is read to its end. -/
theorem readLoop_short {n rounds : ℕ} {buf : List α} {chunks : List (List α)}
    (hrounds : n ≤ buf.length + rounds) (hshort : buf.length + chunks.flatten.length < n) :
    ∃ rest, readLoop n rounds buf chunks = (.error (buf.length + chunks.flatten.length), rest) ∧
      rest.flatten = [] := by
  induction rounds generalizing buf chunks with
  | zero => omega
  | succ rounds ih =>
    obtain ⟨hover, rest, hread, hrest⟩ | ⟨got, rest, hgot, -, hflatten, hread⟩ :=
      readLoop_succ rounds chunks (show buf.length < n by omega)
    · exact ⟨rest, by rw [hread, hover, List.length_nil, Nat.add_zero], hrest⟩
    · have hpos := List.length_pos_of_ne_nil hgot
      have hcount : (buf ++ got).length + rest.flatten.length =
          buf.length + chunks.flatten.length := by
        rw [hflatten, List.length_append, List.length_append, Nat.add_assoc]
      rw [hread, ← hcount]
      exact ih (by rw [List.length_append]; omega) (by omega)

/-- What is missing in the buffer is read, and the rest of the stream left. -/
theorem readLoop_append {n rounds : ℕ} {buf : List α} {chunks : List (List α)} {xs ys : List α}
    (hrounds : n ≤ buf.length + rounds) (hxs : chunks.flatten = xs ++ ys)
    (hlength : buf.length + xs.length = n) :
    ∃ rest, readLoop n rounds buf chunks = (.ok (buf ++ xs), rest) ∧ rest.flatten = ys := by
  induction rounds generalizing buf chunks xs with
  | zero =>
    obtain rfl : xs = [] := List.length_eq_zero_iff.mp (by omega)
    exact ⟨chunks, by rw [readLoop_full hrounds, List.append_nil], hxs⟩
  | succ rounds ih =>
    by_cases hfull : n ≤ buf.length
    · obtain rfl : xs = [] := List.length_eq_zero_iff.mp (by omega)
      exact ⟨chunks, by rw [readLoop_full hfull, List.append_nil], hxs⟩
    · obtain ⟨hover, -⟩ | ⟨got, rest, hgot, hle, hflatten, hread⟩ :=
        readLoop_succ rounds chunks (Nat.lt_of_not_le hfull)
      · obtain rfl : xs = [] := (List.append_eq_nil_iff.mp (hxs.symm.trans hover)).1
        exact absurd hlength.ge hfull
      · -- The chunk is the first part of what is still to come.
        have hpos := List.length_pos_of_ne_nil hgot
        rw [hflatten] at hxs
        obtain ⟨xs', rfl⟩ := List.prefix_of_prefix_length_le ⟨rest.flatten, hxs⟩ ⟨ys, rfl⟩
          (show got.length ≤ xs.length by omega)
        rw [List.append_assoc] at hxs
        rw [List.length_append, ← Nat.add_assoc] at hlength
        rw [hread, ← List.append_assoc]
        exact ih (by rw [List.length_append]; omega) (List.append_cancel_left hxs)
          (by rw [List.length_append]; exact hlength)

/-- However the stream is cut, its first items are read and the others left. -/
theorem readExact_append {chunks : List (List α)} {xs ys : List α} (h : chunks.flatten = xs ++ ys) :
    ∃ rest, readExact xs.length chunks = (.ok xs, rest) ∧ rest.flatten = ys :=
  readLoop_append (by simp) h (by simp)

theorem readExact_short {n : ℕ} {chunks : List (List α)} (h : chunks.flatten.length < n) :
    ∃ rest, readExact n chunks = (.error chunks.flatten.length, rest) ∧ rest.flatten = [] := by
  obtain ⟨rest, hread, hrest⟩ := readLoop_short (show n ≤ ([] : List α).length + n by simp)
    (by simpa using h)
  exact ⟨rest, by simpa [readExact] using hread, hrest⟩

end Recto
