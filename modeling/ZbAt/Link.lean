import ZbAt.Receive
import ZbAt.UartTxProof

/-!
# From a module to the listeners of its host

What the module writes goes through its transmit ring and over the serial line to the host, and from
there to the listeners. The ring and the threads of the host are machines of their own; here one is
put behind the other.

* `Link`, `Link.Reached` — both at some moment, and what ties them together.
* `Link.heard`, `Link.heard_all` — what a listener has heard of what the module wrote.
-/

namespace ZbAt

open Receive

/-- The transmit path of a module with what went into it, and the host. -/
structure Link where
  items : List Item
  uart : Uart.State
  host : Threads.State

namespace Link

/-- Each part came to its state by a run of its own. The module wrote the items, and the host has
read a part of what was sent. -/
structure Reached (rxHex : Bool) (k : Link) : Prop where
  legible : ∀ i ∈ k.items, i.Legible rxHex
  uart : Uart.machine.Reach k.uart
  written : k.uart.written = stream k.items
  host : (Threads.machine rxHex).ReachIf Threads.Commands k.host
  wire : k.host.data <+: k.uart.sent

/-- Nothing is on its way. -/
structure Settled (k : Link) : Prop where
  sent : k.uart.sent = k.uart.written
  read : k.host.data = k.uart.sent
  quiet : Threads.Quiet k.host

section

variable {rxHex : Bool} {k : Link} {l : FanOut.Listener Host.Prompt}

/-- A listener has heard a piece of the prompts of what was written, without a gap. -/
theorem heard (h : k.Reached rxHex) (hl : l ∈ k.host.events.listeners) :
    l.heard <+: (k.items.filterMap Item.prompt).drop l.since := by
  have hstream := (Uart.inv_reach h.uart).stream
  have hwire : k.host.data <+: stream k.items := by
    rw [← h.written, ← hstream, List.append_assoc]
    exact h.wire.trans (List.prefix_append _ _)
  exact heard_items h.legible h.host hl hwire

/-- With nothing on its way, it has heard all of them. -/
theorem heard_all (h : k.Reached rxHex) (hs : k.Settled) (hl : l ∈ k.host.events.listeners) :
    l.heard = (k.items.filterMap Item.prompt).drop l.since := by
  have hdata : k.host.data = stream k.items := by
    rw [hs.read, hs.sent, h.written]
  exact Receive.heard_all h.legible h.host hl hdata hs.quiet

/-- What a listener makes of the prompts it is interested in, from what was written. -/
theorem heard_sublist {β : Type*} (f : Host.Prompt → Option β) (h : k.Reached rxHex)
    (hl : l ∈ k.host.events.listeners) :
    (l.heard.filterMap f).Sublist ((k.items.filterMap Item.prompt).filterMap f) :=
  ((heard h hl).sublist.trans (List.drop_sublist _ _)).filterMap f

end

/-- A write in `n` calls, and its transfer. -/
def writeRun (w : Uart.Write) (n : ℕ) : List Uart.Action :=
  .lock 0 w :: List.replicate n (.run 1024 true) ++ [.txDone 0 w.bytes.length 1024 true]

end Link

end ZbAt
