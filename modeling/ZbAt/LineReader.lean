import ZbAt.UartTx
import ZbAt.Text

/-!
# Splitting the byte stream into lines (port.py)

Bytes are decoded as Latin-1, so a line is the list of its bytes.

* `feed` — `LineReader.feed`: the buffer after it, and the lines.
* `feed_append`, `feed_flatten` — how the stream is cut into chunks does not matter.
* `feed_frame` — a line between two line ends is read back, if it has no CR and no LF and does not
  start with `>`.
-/

namespace ZbAt.Host

open Text Uart

/-- One byte of `LineReader.feed`. -/
def feedByte (buf : Text) (b : UInt8) : Text × List Text :=
  if b = 0x0A then ([], [buf])
  else if b = 0x0D then (buf, [])
  else if buf ++ [b] = [0x3E] then ([], [[0x3E]])
  else (buf ++ [b], [])

/-- `LineReader.feed` -/
def feed : Text → List UInt8 → Text × List Text
  | buf, [] => (buf, [])
  | buf, b :: data =>
    let (buf, lines) := feedByte buf b
    let (buf, rest) := feed buf data
    (buf, lines ++ rest)

/-- `feed`, called for one chunk after the other. -/
def feedChunks : Text → List (List UInt8) → Text × List Text
  | buf, [] => (buf, [])
  | buf, data :: chunks =>
    let (buf, lines) := feed buf data
    let (buf, rest) := feedChunks buf chunks
    (buf, lines ++ rest)

/-- The lines of a stream. -/
def linesOf (data : List UInt8) : List Text := (feed [] data).2

section

variable {buf t : Text} {a b : List UInt8}

theorem feed_append (buf : Text) (a b : List UInt8) :
    feed buf (a ++ b) =
      ((feed (feed buf a).1 b).1, (feed buf a).2 ++ (feed (feed buf a).1 b).2) := by
  induction a generalizing buf with
  | nil => rfl
  | cons c a ih => simp only [List.cons_append, feed, ih, List.append_assoc]

theorem feed_flatten (buf : Text) (chunks : List (List UInt8)) :
    feedChunks buf chunks = feed buf chunks.flatten := by
  induction chunks generalizing buf with
  | nil => rfl
  | cons data chunks ih => simp only [feedChunks, ih, List.flatten_cons, feed_append]

/-- A line end completes the line, whatever it is. -/
theorem feed_crlf (buf : Text) : feed buf crlf = ([], [buf]) := by
  simp [crlf, feed, feedByte]

/-- Nothing is left over behind a line end. -/
theorem feed_closed (buf t : Text) : (feed buf (t ++ crlf)).1 = [] := by
  rw [feed_append, feed_crlf]

theorem linesOf_append (ha : (feed [] a).1 = []) (b : List UInt8) :
    linesOf (a ++ b) = linesOf a ++ linesOf b := by
  rw [linesOf, feed_append, ha]
  rfl

/-- Behind the start of a line, every byte but CR is kept. -/
theorem feed_text (hbuf : buf ≠ []) (ht : 0x0A ∉ t) :
    feed buf t = (buf ++ t.filter (· != 0x0D), []) := by
  induction t generalizing buf with
  | nil => simp [feed]
  | cons c t ih =>
    have hc : c ≠ 0x0A := fun h => ht (h ▸ List.mem_cons_self)
    have ht' : 0x0A ∉ t := fun h => ht (List.mem_cons_of_mem _ h)
    have hone : buf ++ [c] ≠ [0x3E] := by
      intro h
      have hlen := congrArg List.length h
      have hpos := List.length_pos_iff.mpr hbuf
      simp only [List.length_append, List.length_singleton] at hlen
      omega
    by_cases hcr : c = 0x0D
    · simp [feed, feedByte, hcr, ih hbuf ht']
    · have hne : buf ++ [c] ≠ [] := by simp
      simp [feed, feedByte, hc, hcr, hone, ih hne ht']

/-- A text that may stand on a line of its own: no line ends, and no `>` in front. -/
structure Plain (t : Text) : Prop where
  cr : 0x0D ∉ t
  lf : 0x0A ∉ t
  prompt : t.head? ≠ some 0x3E

theorem feed_plain (h : Plain t) : feed [] t = (t, []) := by
  cases t with
  | nil => rfl
  | cons c t =>
    have hlf : c ≠ 0x0A := fun hc => h.lf (hc ▸ List.mem_cons_self)
    have hcr : c ≠ 0x0D := fun hc => h.cr (hc ▸ List.mem_cons_self)
    have hgt : c ≠ 0x3E := fun hc => h.prompt (hc ▸ rfl)
    have hfilter : t.filter (· != 0x0D) = t := by
      refine List.filter_eq_self.mpr fun d hd => bne_iff_ne.mpr ?_
      rintro rfl
      exact h.cr (List.mem_cons_of_mem _ hd)
    have hnolf : 0x0A ∉ t := fun hm => h.lf (List.mem_cons_of_mem _ hm)
    have hrest := feed_text (List.cons_ne_nil c []) hnolf
    rw [hfilter] at hrest
    simp [feed, feedByte, hlf, hcr, hgt, hrest]

/-- **Framing.** A plain line between two line ends is read back. -/
theorem feed_frame (h : Plain t) (buf : Text) :
    feed buf (crlf ++ t ++ crlf) = ([], [buf, t]) := by
  rw [feed_append, feed_append, feed_crlf]
  simp only [feed_plain h, feed_crlf]
  rfl

/-- Every line is made of bytes of the stream, and has no line end. -/
theorem mem_feed {line : Text} (hbuf : 0x0A ∉ buf ∧ 0x0D ∉ buf) (h : line ∈ (feed buf a).2) :
    0x0A ∉ line ∧ 0x0D ∉ line := by
  induction a generalizing buf with
  | nil => cases h
  | cons c a ih =>
    simp only [feed, List.mem_append] at h
    have hbyte : (∀ l ∈ (feedByte buf c).2, 0x0A ∉ l ∧ 0x0D ∉ l) ∧
        0x0A ∉ (feedByte buf c).1 ∧ 0x0D ∉ (feedByte buf c).1 := by
      unfold feedByte
      split_ifs with hlf hcr hgt
      · simpa using hbuf
      · simpa using hbuf
      · simp
      · simp [hbuf, Ne.symm hlf, Ne.symm hcr]
    rcases h with h | h
    · exact hbyte.1 line h
    · exact ih hbyte.2 h

end

end ZbAt.Host
