import ZbAt.RoundTrip
import ZbAt.Utf8
import ZbAt.XcastProof

/-!
# Texts on their way to a display (protocol.py, prompts.py, display.py)

A text is encoded as Latin-1 by `cmd`, sent by one module and printed by another; the other host
reads the line as Latin-1, takes the payload out of it as Latin-1, and shows it as UTF-8. A Python
string is the list of its code points.

* `encodeLatin1`, `describe` — the first and the last of these conversions.
* `shown` — the lines that a host shows for what its module has printed.
* `shown_text` — a text is shown behind its head, decoded.
* `text_shown_iff` — the line ends in the text that was sent, and no other text gives it, if and
  only if the text is ASCII.
-/

namespace ZbAt.Display

open Text Host Report Utf8

/-! ## Strings -/

/-- A text of the module as a Python string. -/
def str (t : Text) : List ℕ := t.map UInt8.toNat

/-- `encode("latin-1")`, or nothing when it raises `UnicodeEncodeError`. -/
def encodeLatin1 (s : List ℕ) : Option (List UInt8) :=
  if ∀ c ∈ s, c < 256 then some (s.map Nat.toUInt8) else none

/-- `lower`, of ASCII letters -/
def lower (t : Text) : Text := t.map fun c => if 65 ≤ c ∧ c ≤ 90 then c + 32 else c

/-- `ev.eui or '?'` -/
def euiOr : Option Text → Text
  | some (c :: eui) => c :: eui
  | _ => ascii "?"

/-- `{nwk:04X}` in brackets -/
def bracketed (nwk : ℕ) : Text := ascii " (" ++ hexText 4 nwk ++ ascii ")"

/-- What stands before the text of a `Text` prompt. -/
def textHead (kind : Text) (eui : Option Text) : Text :=
  lower kind ++ ascii " from " ++ euiOr eui ++ ascii ": "

/-- `describe` -/
def describe : Prompt → Option (List ℕ)
  | .text kind eui data _ _ => some (str (textHead kind eui) ++ decode data)
  | .newNode nwk eui _ => some (str (ascii "new node " ++ eui ++ bracketed nwk))
  | .announce kind eui nwk _ _ => some (str (kind ++ ascii " announced: " ++ eui ++ bracketed nwk))
  | .nodeLeft nwk eui => some (str (ascii "node left: " ++ eui ++ bracketed nwk))
  | .leftPan => some (str (ascii "left the network"))
  | .jpan channel pan epid => some (str (ascii "in network: channel " ++ intText channel ++
      ascii ", PAN " ++ hexText 4 pan ++ ascii ", EPID " ++ epid))
  | .nack seq => some (str (ascii "message " ++ hexText 2 seq ++ ascii " was not acknowledged"))
  | .rx _ nwk profile dstEp srcEp cluster payload _ _ => some (str (ascii "RX from " ++
      hexText 4 nwk ++ ascii ": profile " ++ hexText 4 profile ++ ascii " cluster " ++
      hexText 4 cluster ++ ascii " ep " ++ natText srcEp ++ ascii "->" ++ natText dstEp ++
      ascii ": " ++ lower (bytesText payload)))
  | .ok | .error _ | .seq _ | .ack _ | .matchDesc _ _ _ => none

/-- The lines that the host shows for the bytes of its module, chunk by chunk. -/
def shown (rxHex : Bool) (chunks : List (List UInt8)) : List (List ℕ) :=
  ((feedChunks [] chunks).2.filter (· ≠ [])).filterMap fun line =>
    (parsePrompt line rxHex).bind describe

/-! ## What is sent -/

/-- `ucast`: the command. -/
def ucastCommand (addr : Text) (text : List ℕ) : List ℕ :=
  str (ascii "AT+UCAST:" ++ addr ++ ascii "=") ++ text

/-- `bcast`: the command. -/
def bcastCommand (hops : ℕ) (text : List ℕ) : List ℕ :=
  str (ascii "AT+BCAST:" ++ decDigits 2 hops ++ ascii ",") ++ text

/-- A text that can be sent, and its bytes. It has no control characters of ASCII; those from
`U+0080` to `U+009F` may stand in it. -/
structure Sendable (text : List ℕ) (payload : List UInt8) : Prop where
  short : text.length ≤ 82
  noControl : ∀ c ∈ text, 0x20 ≤ c ∧ c ≠ 0x7F
  encoded : encodeLatin1 text = some payload

/-- How a module prints a text that it has received. -/
structure Printing where
  broadcast : Bool
  ieee : Option Ieee
  ind : Ind
  on : Bool

/-- `print_text` -/
def Printing.bytes (p : Printing) (payload : List UInt8) : List UInt8 :=
  (printText (textKind p.broadcast) p.ieee p.ind payload p.on).bytes

/-- The head that the other host shows. -/
def Printing.head (p : Printing) : Text :=
  textHead (textKind p.broadcast) (p.ieee.map fun a => bytesText a.1.reverse)

section

variable {text : List ℕ} {payload : List UInt8} {chunks : List (List UInt8)}

/-! ## The first conversion -/

theorem encodeLatin1_str (bytes : List UInt8) : encodeLatin1 (str bytes) = some bytes := by
  have hall : ∀ c ∈ str bytes, c < 256 := by
    intro c hc
    obtain ⟨b, -, rfl⟩ := List.mem_map.mp hc
    exact b.toNat_lt
  have hback : (Nat.toUInt8 ∘ UInt8.toNat) = id := by
    funext b
    simp
  rw [encodeLatin1, if_pos hall, str, List.map_map, hback, List.map_id]

/-- What can be encoded is what was decoded from its bytes. -/
theorem encodeLatin1_eq_some (h : encodeLatin1 text = some payload) : text = str payload := by
  rw [encodeLatin1] at h
  split_ifs at h with hall
  cases h
  rw [str, List.map_map]
  symm
  refine (List.map_congr_left fun c hc => ?_).trans (List.map_id text)
  have hlt := hall c hc
  simp only [Function.comp_apply, id_eq]
  exact Nat.mod_eq_of_lt hlt

theorem str_append (s t : Text) : str (s ++ t) = str s ++ str t := List.map_append

/-- The commands are encoded piece by piece. -/
theorem encodeLatin1_append (t : Text) (h : encodeLatin1 text = some payload) :
    encodeLatin1 (str t ++ text) = some (t ++ payload) := by
  rw [encodeLatin1_eq_some h, ← str_append, encodeLatin1_str]

theorem Sendable.bytes (h : Sendable text payload) :
    payload.length ≤ 82 ∧ ∀ b ∈ payload, 0x20 ≤ b ∧ b ≠ 0x7F := by
  have htext := encodeLatin1_eq_some h.encoded
  constructor
  · have hlen := h.short
    rwa [htext, str, List.length_map] at hlen
  · intro b hb
    have hmem : b.toNat ∈ text := htext ▸ List.mem_map_of_mem hb
    obtain ⟨hle, hne⟩ := h.noControl _ hmem
    exact ⟨UInt8.le_iff_toNat_le.mpr hle, fun heq => hne (by rw [heq]; rfl)⟩

theorem Sendable.ne {c : UInt8} (h : Sendable text payload) (hc : c < 0x20) : c ∉ payload :=
  fun hm => absurd (h.bytes.2 c hm).1 (UInt8.not_le.mpr hc)

theorem Sendable.typeable (h : Sendable text payload) : Xcast.Typeable payload := by
  intro c hc
  refine ⟨?_, ?_, ?_, ?_, (h.bytes.2 c hc).2⟩ <;>
    (rintro rfl; exact h.ne (by decide) hc)

/-- The module hands the encoded text over to the stack. -/
theorem submits_text (h : Sendable text payload) {node : Xcast.Node}
    (hjoined : node.joined = true) :
    (∀ addr dst, Xcast.Means node addr dst → ∃ command,
      encodeLatin1 (ucastCommand addr text) = some command ∧
        Xcast.Submits node command payload (Xcast.textTo node dst payload)) ∧
    ∀ hops ≤ 30, ∃ command, encodeLatin1 (bcastCommand hops text) = some command ∧
      Xcast.Submits node command payload (Xcast.textToAll node payload) := by
  constructor
  · intro addr dst hmeans
    refine ⟨_, encodeLatin1_append _ h.encoded, ?_⟩
    have hsubmits := Xcast.submits_ucast hjoined hmeans h.typeable
    simpa only [Xcast.ucast, List.append_assoc] using hsubmits
  · intro hops hle
    refine ⟨_, encodeLatin1_append _ h.encoded, ?_⟩
    have hsubmits := Xcast.submits_bcast hjoined hle h.typeable
    simpa only [Xcast.bcast, List.append_assoc] using hsubmits

/-! ## The line that is shown -/

/-- **A text is shown behind its head, decoded**, however its bytes are cut into chunks. -/
theorem shown_text (h : Sendable text payload) (p : Printing) (rxHex : Bool)
    (hchunks : chunks.flatten = p.bytes payload) :
    shown rxHex chunks = [str p.head ++ decode payload] := by
  have hlen := h.bytes.1
  obtain ⟨line, hline, hparse⟩ := (text_parsed p.broadcast p.ieee p.ind p.on rxHex
    (hlen.trans (by decide))).mpr ⟨h.ne (by decide), h.ne (by decide)⟩ chunks hchunks
  rw [shown, hline, List.filterMap_cons, hparse]
  rfl

/-- The sender in the head is a question mark or sixteen digits. -/
theorem eui_cases (p : Printing) :
    euiOr (p.ieee.map fun a => bytesText a.1.reverse) = ascii "?" ∨
      ∃ c cs, isxdigit c = true ∧ (∀ d ∈ cs, isxdigit d = true) ∧ cs.length = 15 ∧
        euiOr (p.ieee.map fun a => bytesText a.1.reverse) = c :: cs := by
  cases p.ieee with
  | none => exact .inl rfl
  | some a =>
    right
    have hlen : (bytesText a.1.reverse).length = 16 := by
      rw [length_bytesText, List.length_reverse, a.2]
    have hall : ∀ d ∈ bytesText a.1.reverse, isxdigit d = true :=
      (hexBytes_eq_some (hexBytes_bytesText _)).1
    rw [Option.map_some]
    cases heq : bytesText a.1.reverse with
    | nil =>
      rw [heq] at hlen
      cases hlen
    | cons c cs =>
      rw [heq] at hlen hall
      exact ⟨c, cs, hall c List.mem_cons_self, fun d hd => hall d (List.mem_cons_of_mem _ hd),
        Nat.succ.inj hlen, rfl⟩

set_option maxRecDepth 4000 in
theorem ascii_of_isxdigit : ∀ c, isxdigit c = true → c < 0x80 ∧ c ≠ 63 :=
  forall_char (by decide)

/-- What stands in front of the sender. -/
def Printing.opening (p : Printing) : Text := lower (textKind p.broadcast) ++ ascii " from "

theorem head_eq (p : Printing) : p.head =
    p.opening ++ (euiOr (p.ieee.map fun a => bytesText a.1.reverse) ++ ascii ": ") := by
  rw [Printing.head, textHead, Printing.opening, List.append_assoc]

/-- The head is ASCII. -/
theorem ascii_head (p : Printing) : ∀ c ∈ str p.head, c < 0x80 := by
  have hall : ∀ t : Text, (t.all fun c => decide (c < 0x80)) = true → ∀ c ∈ t, c < 0x80 :=
    fun t ht c hc => of_decide_eq_true (List.all_eq_true.mp ht c hc)
  refine Ascii.map_lt ?_
  rw [head_eq]
  refine List.forall_mem_append.mpr ⟨?_, List.forall_mem_append.mpr ⟨?_, hall _ (by decide)⟩⟩
  · unfold Printing.opening
    cases p.broadcast with
    | false => exact hall _ (by decide)
    | true => exact hall _ (by decide)
  · rcases eui_cases p with h | ⟨c, cs, hc, hcs, -, h⟩
    · rw [h]
      exact hall _ (by decide)
    · rw [h]
      exact List.forall_mem_cons.mpr
        ⟨(ascii_of_isxdigit c hc).1, fun d hd => (ascii_of_isxdigit d (hcs d hd)).1⟩

/-- The texts can be told apart behind their heads. -/
theorem head_inj {p q : Printing} {x y : List ℕ} (h : str p.head ++ x = str q.head ++ y) :
    x = y := by
  have hlen : ∀ r : Printing, (str r.opening).length = 11 := by
    intro r
    unfold Printing.opening
    cases r.broadcast <;> rfl
  simp only [head_eq, str_append, List.append_assoc] at h
  have hrest := (List.append_inj h ((hlen p).trans (hlen q).symm)).2
  rcases eui_cases p with hp | ⟨c, cs, hc, -, hcs, hp⟩
  · rcases eui_cases q with hq | ⟨d, ds, hd, -, hds, hq⟩
    · rw [hp, hq] at hrest
      exact List.append_cancel_left (List.append_cancel_left hrest)
    · rw [hp, hq] at hrest
      -- a question mark is no digit
      have hmark : (63 : UInt8).toNat = d.toNat := (List.cons.inj hrest).1
      exact absurd (UInt8.toNat_inj.mp hmark).symm (ascii_of_isxdigit d hd).2
  · rcases eui_cases q with hq | ⟨d, ds, -, -, hds, hq⟩
    · rw [hp, hq] at hrest
      have hmark : c.toNat = (63 : UInt8).toNat := (List.cons.inj hrest).1
      exact absurd (UInt8.toNat_inj.mp hmark) (ascii_of_isxdigit c hc).2
    · rw [hp, hq] at hrest
      have hsame : (str (c :: cs)).length = (str (d :: ds)).length := by
        simp [str, hcs, hds]
      exact List.append_cancel_left (List.append_inj hrest hsame).2

/-! ## The result -/

theorem ascii_iff (h : Sendable text payload) : Ascii payload ↔ ∀ c ∈ text, c < 0x80 := by
  rw [encodeLatin1_eq_some h.encoded]
  simp [Ascii, str, UInt8.lt_iff_toNat_lt]

/-- **Texts on a display.** A text is handed to the stack as its Latin-1 bytes; and when these
arrive and are printed, one line is shown, which ends in the text and is shown for no other text if
and only if the text is ASCII. -/
theorem text_shown_iff (h : Sendable text payload) (p : Printing) (rxHex : Bool)
    (hchunks : chunks.flatten = p.bytes payload) :
    (∀ node : Xcast.Node, node.joined = true →
      (∀ addr dst, Xcast.Means node addr dst → ∃ command,
        encodeLatin1 (ucastCommand addr text) = some command ∧
          Xcast.Submits node command payload (Xcast.textTo node dst payload)) ∧
      ∀ hops ≤ 30, ∃ command, encodeLatin1 (bcastCommand hops text) = some command ∧
        Xcast.Submits node command payload (Xcast.textToAll node payload)) ∧
    ∃ line, shown rxHex chunks = [line] ∧
      ((text <:+ line ∧ ∀ text' payload' (q : Printing) rxHex' chunks', Sendable text' payload' →
        chunks'.flatten = q.bytes payload' → text' ≠ text → shown rxHex' chunks' ≠ [line]) ↔
      ∀ c ∈ text, c < 0x80) := by
  have htext := encodeLatin1_eq_some h.encoded
  refine ⟨fun node hjoined => submits_text h hjoined, _, shown_text h p rxHex hchunks, ?_⟩
  have hsuffix : text <:+ str p.head ++ decode payload ↔ ∀ c ∈ text, c < 0x80 := by
    rw [← ascii_iff h, ← suffix_decode_iff (ascii_head p), htext]
    rfl
  rw [hsuffix]
  refine and_iff_left_of_imp fun hascii text' payload' q rxHex' chunks' h' hchunks' hne hshown => ?_
  rw [shown_text h' q rxHex' hchunks'] at hshown
  have hdecode := head_inj (List.cons.inj hshown).1
  have hpayload := decode_inj ((ascii_iff h).mpr hascii) hdecode.symm
  apply hne
  rw [htext, encodeLatin1_eq_some h'.encoded, hpayload]

end

/-! ## An accented letter -/

/-- A unicast text from a node that has no known EUI64. -/
def plainPrinting : Printing := ⟨false, none, sampleInd, false⟩

theorem shown_hello : ∃ line, shown true [ascii "\r\nUCA", ascii "ST:05=hello\r\n"] = [line] ∧
    str (ascii "hello") <:+ line := by
  have hsend : Sendable (str (ascii "hello")) (ascii "hello") :=
    ⟨by decide, by decide, encodeLatin1_str _⟩
  have hchunks : [ascii "\r\nUCA", ascii "ST:05=hello\r\n"].flatten =
      plainPrinting.bytes (ascii "hello") := by decide
  obtain ⟨-, line, hline, hiff⟩ := text_shown_iff hsend plainPrinting true hchunks
  exact ⟨line, hline, (hiff.mpr (by decide)).1⟩

theorem sendable_letter {b : UInt8} (hb : 0xA0 ≤ b) : Sendable [b.toNat] [b] := by
  have hle : 0xA0 ≤ b.toNat := UInt8.le_iff_toNat_le.mp hb
  refine ⟨by simp, fun c hc => ?_, encodeLatin1_str [b]⟩
  rw [List.mem_singleton.mp hc]
  omega

/-- `é` is shown as `U+FFFD`, and so is `è`. -/
theorem shown_accents :
    shown true [plainPrinting.bytes [0xE9]] = [str (ascii "ucast from ?: ") ++ [0xFFFD]] ∧
      shown true [plainPrinting.bytes [0xE8]] = [str (ascii "ucast from ?: ") ++ [0xFFFD]] :=
  ⟨shown_text (sendable_letter (b := 0xE9) (by decide)) plainPrinting true rfl,
    shown_text (sendable_letter (b := 0xE8) (by decide)) plainPrinting true rfl⟩

theorem not_shown :
    (¬∀ text payload (p : Printing), Sendable text payload →
      ∃ line, shown true [p.bytes payload] = [line] ∧ text <:+ line) ∧
    ¬∀ text payload text' payload' (p : Printing), Sendable text payload →
      Sendable text' payload' → shown true [p.bytes payload] = shown true [p.bytes payload'] →
        text = text' := by
  have hsend : Sendable [0xE9] [0xE9] := sendable_letter (b := 0xE9) (by decide)
  have hsend' : Sendable [0xE8] [0xE8] := sendable_letter (b := 0xE8) (by decide)
  constructor
  · intro h
    obtain ⟨line, hline, hsuffix⟩ := h _ _ plainPrinting hsend
    rw [shown_accents.1] at hline
    rw [← (List.cons.inj hline).1] at hsuffix
    exact absurd hsuffix (by decide)
  · intro h
    have hsame := h _ _ _ _ plainPrinting hsend hsend' (shown_accents.1.trans shown_accents.2.symm)
    exact absurd hsame (by decide)

end ZbAt.Display
