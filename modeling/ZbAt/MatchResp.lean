import ZbAt.RoundTrip

/-!
# Match descriptor responses (zb_msg.c, `match_resp`)

A Match_Desc_rsp says how many endpoints follow its header. `match_resp` reads that many, as long
as its line buffer has room; it never looks at the length of the frame.

* `matchResp` — the line printed, and the endpoint bytes read, by index.
* `matchResp_iff` — the frames of which only received bytes are read and every endpoint is shown.
-/

namespace ZbAt.Report

open Text Uart Host

/-! ## The response -/

/-- `ZB_ZDP_STATUS_TIMEOUT` and `ZB_ZDP_STATUS_TIMEOUT_BY_STACK` -/
structure Timeouts where
  timeout : UInt8
  byStack : UInt8
  timeout_ne : timeout ≠ zdpSuccess
  byStack_ne : byStack ≠ zdpSuccess

/-- A Match_Desc_rsp, with the bytes that follow its header. -/
structure MatchRsp where
  status : UInt8
  matchLen : UInt8
  list : List UInt8
  deriving DecidableEq

/-- The loop of `match_resp` from the endpoint `i` on, with `left` to go: `line`, and the indices
read. -/
def respLoop (ep : ℕ → UInt8) : ℕ → ℕ → Text → Text × List ℕ
  | 0, _, line => (line, [])
  | left + 1, i, line =>
    if line.length + 3 < matchLineSize then
      let (out, reads) := respLoop ep left (i + 1) (line ++
        (ascii "," ++ hexText 2 (ep i).toNat).take (matchLineSize - line.length - 1))
      (out, i :: reads)
    else (line, [])

/-- `match_resp`: the line, and the indices of `ep` that it reads. `beyond` is what the memory holds
behind the frame. -/
def matchResp (t : Timeouts) (srcAddr : UInt16) (resp : MatchRsp) (beyond : ℕ → UInt8) :
    Option Text × List ℕ :=
  if resp.status ≠ t.timeout ∧ resp.status ≠ t.byStack then
    let line := snprintf matchLineSize
      (ascii "MatchDesc:" ++ hexText 4 srcAddr.toNat ++ ascii "," ++ hexText 2 resp.status.toNat)
    let (line, reads) := respLoop (fun i => resp.list.getD i (beyond i))
      (if resp.status = zdpSuccess then resp.matchLen.toNat else 0) 0 line
    (some line, reads)
  else (none, [])

/-- The prompts that the host makes of a printed line. -/
def promptsOf (line : Option Text) : List Prompt :=
  line.elim [] fun line =>
    (linesOf (Write.atPrint line).bytes).filterMap fun l => parsePrompt l true

/-- The room in the line, in endpoints. -/
def matchRoom : ℕ := 31

/-! ## The loop -/

section

variable {ep : ℕ → UInt8}

/-- The loop prints the endpoints like `matchEps`, and stops where the room ends. -/
theorem respLoop_eq {line : Text} {k : ℕ} (left i : ℕ) (hlen : line.length = 17 + 3 * k)
    (hk : k ≤ matchRoom) : respLoop ep left i line =
      (matchEps line ((List.range' i left).map ep),
        List.range' i (min left (matchRoom - k))) := by
  induction left generalizing line k i with
  | zero => simp [respLoop, matchEps]
  | succ left ih =>
    have hentry : (ascii "," ++ hexText 2 (ep i).toNat).length = 3 := by
      rw [List.length_append, length_hexByte]
      rfl
    rw [List.range'_succ, List.map_cons, respLoop, matchEps, hlen]
    by_cases hfull : k = matchRoom
    · subst hfull
      rw [if_neg (by decide), if_neg (by decide), Nat.sub_self, Nat.min_zero]
      rfl
    · have hroom : 17 + 3 * k + 3 < matchLineSize := by
        unfold matchRoom at hk hfull
        unfold matchLineSize
        omega
      have hnext : (line ++ (ascii "," ++ hexText 2 (ep i).toNat).take
          (matchLineSize - (17 + 3 * k) - 1)).length = 17 + 3 * (k + 1) := by
        rw [List.take_of_length_le (by omega), List.length_append, hlen, hentry]
        omega
      have hleft : min (left + 1) (matchRoom - k) = min left (matchRoom - (k + 1)) + 1 := by
        omega
      rw [if_pos hroom, if_pos hroom, ih (i + 1) hnext (by omega), hleft, List.range'_succ]

end

section

variable (t : Timeouts) (srcAddr : UInt16) (resp : MatchRsp) (beyond : ℕ → UInt8)

/-- A response that is no success has no endpoints. -/
theorem matchResp_reads_nil (h : resp.status ≠ zdpSuccess) :
    (matchResp t srcAddr resp beyond).2 = [] := by
  unfold matchResp
  rw [if_neg h]
  split_ifs
  · rfl
  · rfl

/-- What `match_resp` does with a success. -/
theorem matchResp_success (h : resp.status = zdpSuccess) : matchResp t srcAddr resp beyond =
    (some (matchLine srcAddr resp.status
        ((List.range resp.matchLen.toNat).map fun i => resp.list.getD i (beyond i))),
      List.range (min resp.matchLen.toNat matchRoom)) := by
  have hhead : (ascii "MatchDesc:" ++ hexText 4 srcAddr.toNat ++ ascii "," ++
      hexText 2 resp.status.toNat).length = 17 := by
    simp only [List.length_append, length_hexWord, length_hexByte]
    rfl
  have hbuf : (snprintf matchLineSize (ascii "MatchDesc:" ++ hexText 4 srcAddr.toNat ++
      ascii "," ++ hexText 2 resp.status.toNat)).length = 17 + 3 * 0 := by
    rw [snprintf, List.take_of_length_le (by rw [hhead]; decide), hhead]
  have hnot : resp.status ≠ t.timeout ∧ resp.status ≠ t.byStack := by
    rw [h]
    exact ⟨t.timeout_ne.symm, t.byStack_ne.symm⟩
  unfold matchResp
  rw [if_pos hnot, if_pos h]
  dsimp only
  rw [respLoop_eq _ 0 hbuf (Nat.zero_le _), Nat.sub_zero, ← List.range_eq_range',
    ← List.range_eq_range', matchLine, if_pos h]

/-- The host reads what the line says, of as many endpoints as there was room for. -/
theorem promptsOf_matchLine (status : UInt8) (eps : List UInt8) :
    promptsOf (some (matchLine srcAddr status eps)) =
      [.matchDesc srcAddr.toNat status.toNat
        (if status = zdpSuccess then (eps.take matchRoom).map UInt8.toNat else [])] := by
  have hbytes : (Write.atPrint (matchLine srcAddr status eps)).bytes =
      crlf ++ matchLine srcAddr status eps ++ crlf := bytes_line (.matchDesc srcAddr status eps)
  have hplain : Plain (matchLine srcAddr status eps) :=
    (clean_line (.matchDesc srcAddr status eps)).1.plain
  have hlines : linesOf (Write.atPrint (matchLine srcAddr status eps)).bytes =
      [[], matchLine srcAddr status eps] := by
    rw [hbytes, linesOf, feed_frame hplain]
  have hnil : parsePrompt [] true = none := by decide
  have hparse := parse_matchDesc srcAddr status eps true
  rw [promptsOf, Option.elim_some, hlines]
  simp only [List.filterMap_cons, hnil, hparse, List.filterMap_nil]
  rfl

end

/-! ## Frames -/

/-- Every endpoint byte that is read was received. -/
def InFrame (t : Timeouts) (srcAddr : UInt16) (resp : MatchRsp) (beyond : ℕ → UInt8) : Prop :=
  ∀ i ∈ (matchResp t srcAddr resp beyond).2, i < resp.list.length

/-- A success whose list is as long as it says is shown with its address, its status and all its
endpoints. -/
def Shown (t : Timeouts) (srcAddr : UInt16) (resp : MatchRsp) (beyond : ℕ → UInt8) : Prop :=
  resp.status = zdpSuccess → resp.list.length = resp.matchLen.toNat →
    promptsOf (matchResp t srcAddr resp beyond).1 =
      [.matchDesc srcAddr.toNat resp.status.toNat (resp.list.map UInt8.toNat)]

section

variable (t : Timeouts) (srcAddr : UInt16) (resp : MatchRsp) (beyond : ℕ → UInt8)

theorem inFrame_iff : InFrame t srcAddr resp beyond ↔
    (resp.status = zdpSuccess → min resp.matchLen.toNat matchRoom ≤ resp.list.length) := by
  unfold InFrame
  by_cases h : resp.status = zdpSuccess
  · rw [matchResp_success t srcAddr resp beyond h]
    simp only [List.mem_range]
    exact ⟨fun hall _ => le_of_forall_lt hall, fun hle i hi => lt_of_lt_of_le hi (hle h)⟩
  · rw [matchResp_reads_nil t srcAddr resp beyond h]
    exact iff_of_true (fun i hi => absurd hi List.not_mem_nil) fun hs => absurd hs h

/-- A list that is as long as it says is read as it is. -/
theorem map_getD (list : List UInt8) :
    ((List.range list.length).map fun i => list.getD i (beyond i)) = list := by
  apply List.ext_getElem
  · rw [List.length_map, List.length_range]
  · intro i hi hlist
    rw [List.getElem_map, List.getElem_range, List.getD_eq_getElem?_getD,
      List.getElem?_eq_getElem hlist, Option.getD_some]

theorem shown_iff : Shown t srcAddr resp beyond ↔
    (resp.status = zdpSuccess → resp.list.length = resp.matchLen.toNat →
      resp.list.length ≤ matchRoom) := by
  unfold Shown
  refine forall_congr' fun h => forall_congr' fun hlen => ?_
  rw [matchResp_success t srcAddr resp beyond h, ← hlen, map_getD, promptsOf_matchLine, if_pos h]
  constructor
  · intro heq
    have hmap : (resp.list.take matchRoom).map UInt8.toNat = resp.list.map UInt8.toNat := by
      simpa using heq
    have hcount := congrArg List.length hmap
    rw [List.length_map, List.length_map, List.length_take] at hcount
    omega
  · intro hle
    rw [List.take_of_length_le hle]

/-- **Match descriptor responses.** Only received bytes are read, and a complete success is shown
as it is, exactly if as many endpoints follow the header as it says, or as many as there is room
for, and a complete list has room. -/
theorem matchResp_iff :
    InFrame t srcAddr resp beyond ∧ Shown t srcAddr resp beyond ↔
      (resp.status = zdpSuccess →
        min resp.matchLen.toNat matchRoom ≤ resp.list.length ∧
          (resp.list.length = resp.matchLen.toNat → resp.list.length ≤ matchRoom)) := by
  rw [inFrame_iff, shown_iff]
  tauto

end

/-- Two statuses that are no success. -/
def sampleTimeouts : Timeouts := ⟨0x85, 0x93, by decide, by decide⟩

/-- One endpoint follows a header that announces two; the second is what the memory holds. Of 32
endpoints that are there, the last is not shown. -/
theorem matchResp_beyond :
    matchResp sampleTimeouts 0x6CBF ⟨0, 2, [0x02]⟩ (fun _ => 0xAA) =
        (some (ascii "MatchDesc:6CBF,00,02,AA"), [0, 1]) ∧
      ¬InFrame sampleTimeouts 0x6CBF ⟨0, 2, [0x02]⟩ (fun _ => 0xAA) ∧
      ¬Shown sampleTimeouts 0x6CBF ⟨0, 32, List.replicate 32 0x02⟩ (fun _ => 0xAA) := by
  refine ⟨by decide, ?_, ?_⟩
  · rw [inFrame_iff]
    decide
  · rw [shown_iff]
    decide

end ZbAt.Report
