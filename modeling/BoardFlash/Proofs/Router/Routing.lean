import BoardFlash.Proofs.Router.Hub
import BoardFlash.Proofs.Router.Passage
import Mathlib.Data.List.Forall2
import Mathlib.Data.List.Induction

/-!
# Every frame from the link has one fate

What comes in from the link is either put in the queue of one peer or
reported (`Fate`). `Hub.Assigns` are the rules of routing: the fate of
some bytes, given the state of the queues at the moment they are
routed. They never disagree and never fall short (`assigns_iff`).

A `Journal` follows a router whose hub others change as they like
(`Hub.Move`) between any two of its steps. It does not ask the router
what it has done but compares the queues before and after: what has left
the queue from the link (`Hub.departed`), what has entered the queues
of the peers (`Hub.entered`) and what has entered the queue of
diagnostics (`Hub.diagnosed`).

`every_frame_has_one_fate` is the main result, for every run: of the
frames taken from the link each one has exactly the fate that the rules
assign, in the order of arrival, except for at most one that the router
holds; each report comes up once, and enters the queue of diagnostics if
there is room at that moment, as nothing else ever does; and what has been
delivered to a board are the frames of this board that its queue had
room for, and no others. It rests on `Passage.tally`, which says what a
single step adds to the journal, and on `Journal.Kept`, the invariant.
-/

namespace BoardFlash

/-- What becomes of a frame from the link. -/
inductive Fate where
  | delivered (peer : Peer) (frame : Frame)
  | reported (diagnostic : Diagnostic)
  deriving DecidableEq

namespace Fate

def diagnostic? : Fate → Option Diagnostic
  | .reported d => some d
  | .delivered .. => none

/-- The frame, if it was delivered to the `i`-th board. -/
def forBoard? (i : Nat) : Fate → Option Frame
  | .delivered (.board k) f => if k = i then some f else none
  | _ => none

end Fate

/-! ## The rules of routing -/

/-- The rules of routing: the bytes have the fate while the hub is in this
state. -/
inductive Hub.Assigns (h : Hub) (raw : List UInt8) : Fate → Prop where
  | undecodable (e : Frame.DecodeError) (decoded : Frame.decode raw = .error e) :
      Assigns h raw (.reported (.undecodable raw e))
  | console (f : Frame) (decoded : Frame.decode raw = .ok f) (type : f.type = .cliData)
      (room : h.admits .console = true) : Assigns h raw (.delivered .console f)
  | consoleShut (f : Frame) (decoded : Frame.decode raw = .ok f) (type : f.type = .cliData)
      (room : h.admits .console = false) : Assigns h raw (.reported (.undelivered f))
  | foreign (f : Frame) (decoded : Frame.decode raw = .ok f) (type : f.type ≠ .cliData)
      (dest : f.dest ≠ hostId) : Assigns h raw (.reported (.notForHost f))
  | board (f : Frame) (i : Nat) (decoded : Frame.decode raw = .ok f) (type : f.type ≠ .cliData)
      (dest : f.dest = hostId) (route : h.isRouteOf i f.source)
      (room : h.admits (.board i) = true) : Assigns h raw (.delivered (.board i) f)
  | boardShut (f : Frame) (i : Nat) (decoded : Frame.decode raw = .ok f)
      (type : f.type ≠ .cliData) (dest : f.dest = hostId) (route : h.isRouteOf i f.source)
      (room : h.admits (.board i) = false) : Assigns h raw (.reported (.undelivered f))
  | unknown (f : Frame) (decoded : Frame.decode raw = .ok f) (type : f.type ≠ .cliData)
      (dest : f.dest = hostId) (route : ∀ i, ¬ h.isRouteOf i f.source) :
      Assigns h raw (.reported (.unknownSource f))

namespace Hub

/-- A frame of a board that has a route, for the host, is delivered by the
rules or not, as its queue admits it. -/
theorem Assigns.eq_of_route {h : Hub} {raw : List UInt8} {f : Frame} {i : Nat} {fate : Fate}
    (hfate : h.Assigns raw fate) (hdecoded : Frame.decode raw = .ok f)
    (htype : f.type ≠ .cliData) (hdest : f.dest = hostId) (hroute : h.isRouteOf i f.source) :
    fate = if h.admits (.board i) then .delivered (.board i) f else .reported (.undelivered f) := by
  cases hfate with
  | undecodable e decoded => rw [hdecoded] at decoded; cases decoded
  | console f' decoded type | consoleShut f' decoded type =>
      obtain rfl := Except.ok.inj (hdecoded.symm.trans decoded)
      exact absurd type htype
  | foreign f' decoded _ dest =>
      obtain rfl := Except.ok.inj (hdecoded.symm.trans decoded)
      exact absurd hdest dest
  | board f' k decoded _ _ route room | boardShut f' k decoded _ _ route room =>
      obtain rfl := Except.ok.inj (hdecoded.symm.trans decoded)
      obtain rfl := isRouteOf_unique hroute route
      simp [room]
  | unknown f' decoded _ _ route =>
      obtain rfl := Except.ok.inj (hdecoded.symm.trans decoded)
      exact absurd hroute (route i)

/-- No two rules apply with different results. -/
theorem Assigns.unique {h : Hub} {raw : List UInt8} {a b : Fate} (ha : h.Assigns raw a)
    (hb : h.Assigns raw b) : b = a := by
  cases ha with
  | undecodable e decoded =>
      cases hb with
      | undecodable e' decoded' => obtain rfl := Except.error.inj (decoded.symm.trans decoded'); rfl
      | _ => simp_all
  | console f decoded type room | consoleShut f decoded type room =>
      cases hb <;> simp_all
  | foreign f decoded type dest => cases hb <;> simp_all
  | board f i decoded type dest route room | boardShut f i decoded type dest route room =>
      rw [hb.eq_of_route decoded type dest route]
      simp [room]
  | unknown f decoded type dest route => cases hb <;> simp_all

instance (h : Hub) (i : Nat) (board : UInt8) : Decidable (h.isRouteOf i board) :=
  inferInstanceAs (Decidable (_ = _))

/-- The frame that the bytes are, if it is one of the `i`-th board for the
host; of several routes with its id only the first counts. -/
def frameFor? (h : Hub) (i : Nat) (raw : List UInt8) : Option Frame :=
  match Frame.decode raw with
  | .ok f =>
    if f.type ≠ .cliData ∧ f.dest = hostId ∧ h.isRouteOf i f.source then some f else none
  | .error _ => none

theorem SameRoutes.frameFor?_eq {h h' : Hub} (hroutes : SameRoutes h h') (i : Nat)
    (raw : List UInt8) : h'.frameFor? i raw = h.frameFor? i raw := by
  have hroute : ∀ board, h'.isRouteOf i board ↔ h.isRouteOf i board := by
    intro board
    unfold isRouteOf
    rw [hroutes.ids]
  simp only [frameFor?, hroute]

/-- What the rules deliver to a board is a frame of this board. -/
theorem Assigns.forBoard?_eq {h : Hub} {raw : List UInt8} {fate : Fate}
    (hfate : h.Assigns raw fate) (i : Nat) :
    fate.forBoard? i = if h.admits (.board i) then h.frameFor? i raw else none := by
  by_cases hown : ∃ f, h.frameFor? i raw = some f
  · obtain ⟨f, hf⟩ := hown
    have hframe := hf
    unfold frameFor? at hframe
    split at hframe
    · next f' hdecoded =>
      split at hframe
      · next hcond =>
        obtain rfl := Option.some.inj hframe
        obtain ⟨htype, hdest, hroute⟩ := hcond
        rw [hfate.eq_of_route hdecoded htype hdest hroute, hf]
        split <;> simp [Fate.forBoard?]
      · cases hframe
    · cases hframe
  · have hnone : h.frameFor? i raw = none := by
      rw [Option.eq_none_iff_forall_ne_some]
      exact fun f hf => hown ⟨f, hf⟩
    rw [hnone, ite_self]
    cases hfate with
    | board f k decoded type dest route room =>
        by_cases hk : k = i
        · subst hk
          simp [frameFor?, decoded, type, dest, route] at hnone
        · simp [Fate.forBoard?, hk]
    | _ => rfl

/-! ## What a step does, seen from the queues -/

/-- All peers, in the order of their turns. -/
def peers (h : Hub) : List Peer := (List.range h.routes.length).map .board ++ [.console]

/-- What has left the front of the queue from the link. -/
def departed (h h' : Hub) : List (List UInt8) :=
  h.link.back.items.take (h.link.back.items.length - h'.link.back.items.length)

/-- What has entered the back of the peer's queue. -/
def grown (h h' : Hub) (peer : Peer) : List Frame :=
  match h.queues? peer, h'.queues? peer with
  | some d, some d' => d'.back.items.drop d.back.items.length
  | _, _ => []

/-- What has entered the queues of all peers. -/
def entered (h h' : Hub) : List Fate :=
  h.peers.flatMap fun peer => (grown h h' peer).map (.delivered peer)

/-- Somebody reads the diagnostics, and there is room for one more. -/
def diagnoses (h : Hub) : Bool := h.diagnostics.receiverOpen && !h.diagnostics.isFull

/-- What has entered the back of the queue of diagnostics. -/
def diagnosed (h h' : Hub) : List Diagnostic :=
  h'.diagnostics.items.drop h.diagnostics.items.length

theorem nodup_peers (h : Hub) : h.peers.Nodup := by
  unfold peers
  rw [List.nodup_append]
  refine ⟨List.nodup_range.map fun a b hab => Peer.board.inj hab, List.nodup_singleton _, ?_⟩
  intro a ha b hb
  obtain ⟨i, -, rfl⟩ := List.mem_map.mp ha
  rw [List.mem_singleton.mp hb]
  exact Peer.noConfusion

theorem mem_peers {h : Hub} {peer : Peer} {d : Duplex Frame} (hd : h.queues? peer = some d) :
    peer ∈ h.peers := by
  cases peer with
  | console => simp [peers]
  | board i =>
      have hi : i < h.routes.length := by
        by_contra hle
        simp [queues?, List.getElem?_eq_none (Nat.le_of_not_lt hle)] at hd
      simp [peers, hi]

theorem departed_of_eq {h h' : Hub} (hback : h'.link.back.items = h.link.back.items) :
    departed h h' = [] := by
  simp [departed, hback]

theorem departed_of_cons {h h' : Hub} {raw : List UInt8}
    (hback : h.link.back.items = raw :: h'.link.back.items) : departed h h' = [raw] := by
  simp [departed, hback]

theorem grown_of_length_le {h h' : Hub} {peer : Peer}
    (hback : ∀ d d', h.queues? peer = some d → h'.queues? peer = some d' →
      d'.back.items.length ≤ d.back.items.length) : grown h h' peer = [] := by
  unfold grown
  split
  · next d d' hd hd' => exact List.drop_eq_nil_iff.mpr (hback d d' hd hd')
  · rfl

theorem grown_setQueues_ne {h : Hub} {peer p : Peer} (hp : p ≠ peer) (d : Duplex Frame) :
    grown h (h.setQueues peer d) p = [] := by
  refine grown_of_length_le fun e e' he he' => ?_
  rw [queues?_setQueues_ne hp, he] at he'
  exact Nat.le_of_eq (congrArg (·.back.items.length) (Option.some.inj he').symm)

theorem entered_of_eq {h h' : Hub}
    (hback : ∀ peer, (h'.queues? peer).map (·.back.items) = (h.queues? peer).map (·.back.items)) :
    entered h h' = [] := by
  unfold entered
  rw [List.flatMap_eq_nil_iff]
  intro peer _
  rw [grown_of_length_le, List.map_nil]
  intro d d' hd hd'
  have hsame := hback peer
  rw [hd, hd', Option.map_some, Option.map_some] at hsame
  exact Nat.le_of_eq (congrArg List.length (Option.some.inj hsame))

theorem entered_setQueues {h : Hub} {peer : Peer} {d : Duplex Frame} {f : Frame}
    {back : Queue Frame} (hd : h.queues? peer = some d) (hback : back.items = d.back.items ++ [f]) :
    entered h (h.setQueues peer { d with back }) = [.delivered peer f] := by
  have hself : grown h (h.setQueues peer { d with back }) peer = [f] := by
    simp [grown, hd, queues?_setQueues_self hd, hback]
  obtain ⟨before, after, hsplit⟩ := List.append_of_mem (mem_peers hd)
  have hnodup := nodup_peers h
  rw [hsplit, List.nodup_append, List.nodup_cons] at hnodup
  obtain ⟨-, ⟨hafter, -⟩, hbefore⟩ := hnodup
  have hnil : ∀ ps : List Peer, peer ∉ ps → (ps.flatMap fun p =>
      (grown h (h.setQueues peer { d with back }) p).map (Fate.delivered p)) = [] := by
    intro ps hps
    rw [List.flatMap_eq_nil_iff]
    intro p hp
    have hne : p ≠ peer := fun heq => hps (heq ▸ hp)
    rw [grown_setQueues_ne hne, List.map_nil]
  have hbefore' : peer ∉ before := fun hmem => hbefore peer hmem peer List.mem_cons_self rfl
  rw [entered, hsplit, List.flatMap_append, List.flatMap_cons, hnil before hbefore',
    hnil after hafter, hself]
  rfl

theorem back_setQueues_forth {h : Hub} {peer : Peer} {d : Duplex Frame} {forth : Queue Frame}
    (hd : h.queues? peer = some d) (p : Peer) :
    ((h.setQueues peer { d with forth }).queues? p).map (·.back.items)
      = (h.queues? p).map (·.back.items) := by
  rw [queues?_setQueues]
  split
  · next heq => rw [heq, hd]; rfl
  · rfl

theorem back_release (h : Hub) (p : Peer) :
    (h.release.queues? p).map (·.back.items) = (h.queues? p).map (·.back.items) := by
  cases p with
  | board i => cases hi : h.routes[i]? <;> simp [release, queues?, hi, Duplex.flip,
      Duplex.closeFirst, Queue.closeReceiver, Queue.closeSender]
  | console => cases hc : h.console <;> simp [release, queues?, hc, Duplex.flip,
      Duplex.closeFirst, Queue.closeReceiver, Queue.closeSender]

/-- Nobody but the router puts anything in the queues of the peers. -/
theorem entered_apply (h : Hub) (move : Move) : entered h (h.apply move) = [] := by
  have hset : ∀ peer d d', h.queues? peer = some d →
      d'.back.items.length ≤ d.back.items.length → entered h (h.setQueues peer d') = [] := by
    intro peer d d' hd hle
    unfold entered
    rw [List.flatMap_eq_nil_iff]
    intro p _
    by_cases hp : p = peer
    · subst hp
      rw [grown_of_length_le, List.map_nil]
      intro e e' he he'
      obtain rfl := Option.some.inj (hd.symm.trans he)
      obtain rfl := Option.some.inj ((queues?_setQueues_self hd d').symm.trans he')
      exact hle
    · rw [grown_setQueues_ne hp, List.map_nil]
  unfold apply respond
  cases move with
  | submit peer frame =>
      dsimp only
      split
      · next d hd => exact hset peer d _ hd (Nat.le_refl _)
      · exact entered_of_eq fun _ => rfl
  | collect peer n =>
      dsimp only
      split
      · next d hd =>
        refine hset peer d _ hd ?_
        unfold pull
        split
        · simp [Queue.take]
        · exact Nat.le_refl _
      · exact entered_of_eq fun _ => rfl
  | hangUp peer halves =>
      dsimp only
      split
      · next d hd =>
        refine hset peer d _ hd ?_
        cases halves with
        | sending | receiving | both => exact Nat.le_refl _
      · exact entered_of_eq fun _ => rfl
  | _ => exact entered_of_eq fun p => by cases p <;> rfl

theorem diagnosed_of_length_le {h h' : Hub}
    (hle : h'.diagnostics.items.length ≤ h.diagnostics.items.length) : diagnosed h h' = [] :=
  List.drop_eq_nil_iff.mpr hle

/-- Nobody but the router puts anything in the queue of diagnostics. -/
theorem diagnosed_apply (h : Hub) (move : Move) : diagnosed h (h.apply move) = [] := by
  have hset : ∀ peer d, diagnosed h (h.setQueues peer d) = [] := by
    intro peer d
    refine diagnosed_of_length_le (Nat.le_of_eq ?_)
    cases peer <;> rfl
  unfold apply respond
  cases move with
  | submit peer | collect peer | hangUp peer =>
      dsimp only
      split
      · exact hset peer _
      · exact diagnosed_of_length_le (Nat.le_refl _)
  | inspect n =>
      refine diagnosed_of_length_le ?_
      dsimp only
      unfold pull
      split
      · simp [Queue.take]
      · exact Nat.le_refl _
  | _ => exact diagnosed_of_length_le (Nat.le_refl _)

end Hub

namespace Router

/-! ## What one step adds to the journal -/

/-- The diagnostic that the router is about to offer. -/
def Phase.pending : Phase → List Diagnostic
  | .reporting d => [d]
  | _ => []

/-- These bytes have been taken from the link, and their fate is open. -/
def Phase.Holds (phase : Phase) (held : List (List UInt8)) : Prop :=
  match phase with
  | .dispatching f => ∃ raw, held = [raw] ∧ Frame.decode raw = .ok f
  | _ => held = []

/-- The fates that a step decides: it fills a queue or turns to a report. -/
def decided (h h' : Hub) (after : Phase) : List Fate :=
  Hub.entered h h' ++ after.pending.map .reported

/-- The diagnostics that come up in a step: the queue has them now, unless it had no room. -/
def offered (h h' : Hub) (before : Phase) : List Diagnostic :=
  before.pending.filter fun d => h'.diagnostics
    = { h.diagnostics with items := h.diagnostics.items ++ if h.diagnoses then [d] else [] }

theorem Phase.pending_of_free {phase : Phase} (hfree : phase.free = true) :
    phase.pending = [] := by
  cases phase with
  | reporting => cases hfree
  | _ => rfl

theorem Phase.holds_of_free {phase : Phase} (hfree : phase.free = true)
    {held : List (List UInt8)} : phase.Holds held ↔ held = [] := by
  cases phase with
  | dispatching => cases hfree
  | _ => rfl

/-- What one step adds to the journal when `held` is in the router's hands. -/
structure Tally (before after : Phase) (h h' : Hub) (held : List (List UInt8)) : Prop where
  /-- What was held or has come in is settled by the rules or still held. -/
  settled : ∃ done rest, held ++ Hub.departed h h' = done ++ rest
    ∧ List.Forall₂ h.Assigns done (decided h h' after) ∧ after.Holds rest
  /-- What is decided to be reported comes up, at once or next. -/
  reports : offered h h' before ++ after.pending
    = before.pending ++ (decided h h' after).filterMap Fate.diagnostic?
  /-- It enters the queue of diagnostics if there is room, and nothing else does. -/
  diagnosed : Hub.diagnosed h h' = if h.diagnoses then offered h h' before else []

theorem offered_of_pending_nil {h h' : Hub} {before : Phase} (hbefore : before.pending = []) :
    offered h h' before = [] := by
  rw [offered, hbefore, List.filter_nil]

/-- With nothing to report the queue of diagnostics is left as it is. -/
theorem diagnosed_of_pending_nil {h h' : Hub} {before : Phase} (hbefore : before.pending = [])
    (hitems : h'.diagnostics.items = h.diagnostics.items) :
    Hub.diagnosed h h' = if h.diagnoses then offered h h' before else [] := by
  rw [offered_of_pending_nil hbefore, ite_self]
  exact Hub.diagnosed_of_length_le (Nat.le_of_eq (congrArg List.length hitems))

/-- The link, the queues to the peers and the diagnostics are left as they are, and
the router's hands are empty before and after. -/
theorem Tally.idle {before after : Phase} {h h' : Hub} {held : List (List UInt8)}
    (hheld : held = []) (hholds : after.Holds []) (hbefore : before.pending = [])
    (hafter : after.pending = []) (hlink : h'.link.back.items = h.link.back.items)
    (hback : ∀ p, (h'.queues? p).map (·.back.items) = (h.queues? p).map (·.back.items))
    (hdiagnostics : h'.diagnostics.items = h.diagnostics.items) :
    Tally before after h h' held := by
  have hdecided : decided h h' after = [] := by
    rw [decided, Hub.entered_of_eq hback, hafter]
    rfl
  refine ⟨⟨[], [], ?_, ?_, hholds⟩, ?_, ?_⟩
  · rw [hheld, Hub.departed_of_eq hlink]
  · rw [hdecided]
    exact .nil
  · rw [hdecided, hbefore, hafter, offered_of_pending_nil hbefore]
    rfl
  · exact diagnosed_of_pending_nil hbefore hdiagnostics

theorem Tally.report {f : Frame} {d : Diagnostic} {h : Hub} {held : List (List UInt8)}
    (hheld : (Phase.dispatching f).Holds held)
    (hrule : ∀ raw, Frame.decode raw = .ok f → h.Assigns raw (.reported d)) :
    Tally (.dispatching f) (.reporting d) h h held := by
  obtain ⟨raw, rfl, hdecoded⟩ := hheld
  have hdecided : decided h h (.reporting d) = [.reported d] := by
    rw [decided, Hub.entered_of_eq fun _ => rfl]
    rfl
  refine ⟨⟨[raw], [], ?_, ?_, rfl⟩, ?_, diagnosed_of_pending_nil rfl rfl⟩
  · rw [Hub.departed_of_eq rfl]
  · rw [hdecided]
    exact .cons (hrule raw hdecoded) .nil
  · rw [hdecided]
    rfl

/-- A single step settles what the router holds by the rules. -/
theorem Passage.tally {r r' : Router} {h h' : Hub} (p : Passage r h r' h')
    {held : List (List UInt8)} (hheld : r.phase.Holds held) :
    Tally r.phase r'.phase h h' held := by
  cases p with
  | quiet before after hub =>
      subst hub
      exact .idle ((Phase.holds_of_free before).mp hheld) ((Phase.holds_of_free after).mpr rfl)
        (Phase.pending_of_free before) (Phase.pending_of_free after) rfl (fun _ => rfl) rfl
  | stop before cancelled after hub =>
      subst hub
      rw [before] at hheld ⊢
      rw [after]
      exact .idle hheld rfl rfl rfl rfl (Hub.back_release h) rfl
  | listen raw back frame before taken decoded after hub =>
      subst hub
      obtain ⟨hitems, -⟩ := Queue.tryRecv_eq_ok_iff.mp taken
      rw [before] at hheld ⊢
      rw [after]
      have hdecided : decided h { h with link := { h.link with back } } (.dispatching frame)
          = [] := by
        rw [decided, Hub.entered_of_eq fun p => by cases p <;> rfl]
        rfl
      refine ⟨⟨[], [raw], ?_, ?_, raw, rfl, decoded⟩, ?_, diagnosed_of_pending_nil rfl rfl⟩
      · rw [hheld, Hub.departed_of_cons hitems]
      · rw [hdecided]
        exact .nil
      · rw [hdecided]
        rfl
  | garble raw back error before taken decoded after hub =>
      subst hub
      obtain ⟨hitems, -⟩ := Queue.tryRecv_eq_ok_iff.mp taken
      rw [before] at hheld ⊢
      rw [after]
      have hdecided : decided h { h with link := { h.link with back } }
          (.reporting (.undecodable raw error)) = [.reported (.undecodable raw error)] := by
        rw [decided, Hub.entered_of_eq fun p => by cases p <;> rfl]
        rfl
      refine ⟨⟨[raw], [], ?_, ?_, rfl⟩, ?_, diagnosed_of_pending_nil rfl rfl⟩
      · rw [hheld, Hub.departed_of_cons hitems]
        rfl
      · rw [hdecided]
        exact .cons (.undecodable error decoded) .nil
      · rw [hdecided]
        rfl
  | deliver frame peer queues back before dest found sent after hub =>
      subst hub
      obtain ⟨-, -, hback⟩ := Queue.trySend_eq_ok_iff.mp sent
      rw [before] at hheld ⊢
      rw [after]
      obtain ⟨raw, rfl, hdecoded⟩ := hheld
      have hdecided : decided h (h.setQueues peer { queues with back }) (.visiting 0)
          = [.delivered peer frame] := by
        rw [decided, Hub.entered_setQueues found (congrArg Queue.items hback)]
        rfl
      have hroom := Hub.admits_of_trySend found sent
      have hdiagnostics := Hub.setQueues_diagnostics h peer { queues with back }
      refine ⟨⟨[raw], [], ?_, ?_, rfl⟩, ?_,
        diagnosed_of_pending_nil rfl (congrArg Queue.items hdiagnostics)⟩
      · rw [Hub.departed_of_eq (by rw [Hub.setQueues_link])]
      · rw [hdecided]
        refine .cons ?_ .nil
        rcases Hub.destination_peer dest with ⟨htype, rfl⟩ | ⟨htype, hdest, i, hroute, rfl⟩
        · exact .console frame hdecoded htype hroom
        · exact .board frame i hdecoded htype hdest hroute hroom
      · rw [hdecided]
        rfl
  | refuse frame peer before dest refused after hub =>
      subst hub
      rw [before] at hheld ⊢
      rw [after]
      refine .report hheld fun raw hdecoded => ?_
      have hroom := Hub.not_admits_of_refused refused
      rcases Hub.destination_peer dest with ⟨htype, rfl⟩ | ⟨htype, hdest, i, hroute, rfl⟩
      · exact .consoleShut frame hdecoded htype hroom
      · exact .boardShut frame i hdecoded htype hdest hroute hroom
  | divert frame diagnostic before dest after hub =>
      subst hub
      rw [before] at hheld ⊢
      rw [after]
      refine .report hheld fun raw hdecoded => ?_
      rcases Hub.destination_report dest with ⟨htype, hconsole, rfl⟩ | ⟨htype, hdest, rfl⟩
        | ⟨htype, hdest, hroute, rfl⟩
      · exact .consoleShut frame hdecoded htype (by simp [Hub.admits, Hub.queues?, hconsole])
      · exact .foreign frame hdecoded htype hdest
      · exact .unknown frame hdecoded htype hdest hroute
  | report diagnostic before after hub =>
      subst hub
      rw [before] at hheld ⊢
      rw [after]
      have hdecided : decided h { h with diagnostics := h.diagnostics.offer diagnostic }
          (.visiting 0) = [] := by
        rw [decided, Hub.entered_of_eq fun p => by cases p <;> rfl]
        rfl
      have hoffered : offered h { h with diagnostics := h.diagnostics.offer diagnostic }
          (.reporting diagnostic) = [diagnostic] := by
        simp [offered, Phase.pending, Queue.offer_eq, Hub.diagnoses]
      refine ⟨⟨[], [], ?_, ?_, rfl⟩, ?_, ?_⟩
      · rw [hheld]
        exact Hub.departed_of_eq rfl
      · rw [hdecided]
        exact .nil
      · rw [hdecided, hoffered]
        rfl
      · rw [hoffered, Hub.diagnosed, Queue.offer_eq, List.drop_left]
        rfl
  | pull turn queues frame forth before found taken after hub =>
      subst hub
      rw [before] at hheld ⊢
      rw [after]
      exact .idle hheld rfl rfl rfl (by rw [Hub.setQueues_link]) (Hub.back_setQueues_forth found)
        (by rw [Hub.setQueues_diagnostics])
  | push turn frame forth before sent after hub =>
      subst hub
      rw [before] at hheld ⊢
      have hfree := free_of_calm after
      exact .idle hheld ((Phase.holds_of_free hfree).mpr rfl) rfl (Phase.pending_of_free hfree)
        rfl (fun p => by cases p <;> rfl) rfl
  | drop turn frame before why refused after hub =>
      subst hub
      rw [before] at hheld ⊢
      have hfree := free_of_calm after
      exact .idle hheld ((Phase.holds_of_free hfree).mpr rfl) rfl (Phase.pending_of_free hfree)
        rfl (fun _ => rfl) rfl

theorem Passage.sameRoutes {r r' : Router} {h h' : Hub} (p : Passage r h r' h') :
    Hub.SameRoutes h h' := by
  cases p with
  | quiet _ _ hub | refuse _ _ _ _ _ _ hub | divert _ _ _ _ _ hub
  | drop _ _ _ _ _ _ hub =>
      rw [hub]
      exact .refl h
  | listen _ _ _ _ _ _ _ hub | garble _ _ _ _ _ _ _ hub | report _ _ _ hub
  | push _ _ _ _ _ _ hub =>
      rw [hub]
      exact ⟨rfl, rfl⟩
  | stop _ _ _ hub =>
      rw [hub]
      exact Hub.sameRoutes_release h
  | deliver _ _ _ _ _ _ _ _ _ hub | pull _ _ _ _ _ _ _ _ hub =>
      rw [hub]
      exact Hub.sameRoutes_setQueues ..

theorem Passage.cancelled_eq {r r' : Router} {h h' : Hub} (p : Passage r h r' h') :
    h'.cancelled = h.cancelled := by
  cases p with
  | quiet _ _ hub | stop _ _ _ hub | refuse _ _ _ _ _ _ hub | divert _ _ _ _ _ hub
  | drop _ _ _ _ _ _ hub | listen _ _ _ _ _ _ _ hub | garble _ _ _ _ _ _ _ hub
  | report _ _ _ hub | push _ _ _ _ _ _ hub =>
      subst hub
      rfl
  | deliver _ _ _ _ _ _ _ _ _ hub | pull _ _ _ _ _ _ _ _ hub => rw [hub, Hub.setQueues_cancelled]

/-! ## Whole runs -/

/-- A fate and the hub at the moment when it was decided. -/
structure Entry where
  hub : Hub
  fate : Fate

/-- A diagnostic and the hub at the moment when it came up. -/
structure Report where
  hub : Hub
  diagnostic : Diagnostic

/-- A router at work, and what has been seen of it so far. -/
structure Journal where
  router : Router := {}
  hub : Hub
  /-- What has been taken from the link. -/
  taken : List (List UInt8) := []
  fates : List Entry := []
  reports : List Report := []
  /-- What has entered the queue of diagnostics. -/
  diagnosed : List Diagnostic := []

/-- The router takes a step, or others change the hub. -/
inductive Act where
  | step
  | move (move : Hub.Move)

namespace Journal

def apply (j : Journal) : Act → Journal
  | .step =>
    let r := j.router.step j.hub
    { router := r.router
      hub := r.hub
      taken := j.taken ++ Hub.departed j.hub r.hub
      fates := j.fates ++ (decided j.hub r.hub r.router.phase).map (Entry.mk j.hub)
      reports := j.reports ++ (offered j.hub r.hub j.router.phase).map (Report.mk j.hub)
      diagnosed := j.diagnosed ++ Hub.diagnosed j.hub r.hub }
  | .move move =>
    let h := j.hub.apply move
    { j with
      hub := h
      fates := j.fates ++ (Hub.entered j.hub h).map (Entry.mk j.hub)
      diagnosed := j.diagnosed ++ Hub.diagnosed j.hub h }

/-- A new router among these queues, after all that was done. -/
def run (hub : Hub) (acts : List Act) : Journal := acts.foldl apply { hub }

/-- What has been put in the queue of the `i`-th board. -/
def deliveredTo (j : Journal) (i : Nat) : List Frame :=
  j.fates.filterMap fun e => e.fate.forBoard? i

/-- All that was taken from the link is settled by the rules or in the
router's hands, all that is to be reported has come up or is in its hands, and
what came up while there was room is in the queue of diagnostics. -/
structure Kept (hub : Hub) (j : Journal) : Prop where
  routes : Hub.SameRoutes hub j.hub
  settled : ∃ done held, j.taken = done ++ held ∧ j.router.phase.Holds held
    ∧ List.Forall₂ (fun raw (e : Entry) => Hub.SameRoutes hub e.hub ∧ e.hub.Assigns raw e.fate)
        done j.fates
  reports : j.reports.map Report.diagnostic ++ j.router.phase.pending
    = j.fates.filterMap fun e => e.fate.diagnostic?
  diagnosed : j.diagnosed = (j.reports.filter (·.hub.diagnoses)).map Report.diagnostic

theorem start_kept (hub : Hub) : Kept hub { hub } :=
  ⟨.refl hub, ⟨[], [], rfl, rfl, .nil⟩, rfl, rfl⟩

theorem Kept.apply {hub : Hub} {j : Journal} (hj : Kept hub j) (act : Act) :
    Kept hub (j.apply act) := by
  cases act with
  | move move =>
      have hfates : (j.apply (.move move)).fates = j.fates := by
        simp [Journal.apply, Hub.entered_apply]
      refine ⟨hj.routes.trans (Hub.sameRoutes_apply j.hub move), ?_, ?_, ?_⟩
      · rw [hfates]
        exact hj.settled
      · rw [hfates]
        exact hj.reports
      · show j.diagnosed ++ Hub.diagnosed j.hub (j.hub.apply move) = _
        rw [Hub.diagnosed_apply, List.append_nil]
        exact hj.diagnosed
  | step =>
      have hpassage := step_passage j.router j.hub
      obtain ⟨done, held, htaken, hholds, hsettled⟩ := hj.settled
      obtain ⟨⟨done', held', hsplit, hdone', hholds'⟩, hreports, hdiagnosed⟩ :=
        hpassage.tally hholds
      refine ⟨hj.routes.trans hpassage.sameRoutes, ⟨done ++ done', held', ?_, hholds', ?_⟩, ?_, ?_⟩
      · show j.taken ++ Hub.departed j.hub _ = _
        rw [htaken, List.append_assoc, hsplit, List.append_assoc]
      · refine List.rel_append hsettled ?_
        rw [List.forall₂_map_right_iff]
        exact hdone'.imp fun _ _ hrule => ⟨hj.routes, hrule⟩
      · show (j.reports ++ (offered j.hub _ _).map _).map Report.diagnostic
          ++ (j.router.step j.hub).router.phase.pending = (j.fates ++ _).filterMap _
        have hreported : ((offered j.hub (j.router.step j.hub).hub j.router.phase).map
            (Report.mk j.hub)).map Report.diagnostic
              = offered j.hub (j.router.step j.hub).hub j.router.phase := by
          rw [List.map_map]
          exact List.map_id _
        rw [List.map_append, hreported, List.append_assoc, hreports, ← List.append_assoc,
          hj.reports, List.filterMap_append, List.filterMap_map]
        rfl
      · show j.diagnosed ++ Hub.diagnosed j.hub _ = List.map _ (List.filter _ (j.reports ++ _))
        rw [hdiagnosed, hj.diagnosed, List.filter_append, List.map_append, List.filter_map,
          List.map_map]
        congr 1
        cases hroom : j.hub.diagnoses <;> simp [Function.comp_def, hroom]

theorem run_kept (hub : Hub) (acts : List Act) : Kept hub (run hub acts) := by
  induction acts using List.reverseRecOn with
  | nil => exact start_kept hub
  | append_singleton acts act ih =>
      rw [run, List.foldl_append, List.foldl_cons, List.foldl_nil]
      exact ih.apply act

/-- What has been delivered to a board are the frames of this board that its
queue admitted, in the order in which they came. -/
theorem Kept.deliveredTo_eq {hub : Hub} {j : Journal} (hj : Kept hub j) (i : Nat) :
    j.deliveredTo i = (j.taken.zip j.fates).filterMap fun (raw, e) =>
      if e.hub.admits (.board i) then hub.frameFor? i raw else none := by
  obtain ⟨done, held, htaken, -, hsettled⟩ := hj.settled
  rw [htaken, deliveredTo]
  clear htaken
  generalize j.fates = fates at hsettled ⊢
  induction hsettled with
  | nil => simp
  | cons hrule _ ih =>
      obtain ⟨hroutes, hassigned⟩ := hrule
      rw [List.filterMap_cons, List.cons_append, List.zip_cons_cons, List.filterMap_cons, ih,
        hassigned.forBoard?_eq i, hroutes.frameFor?_eq]

/-- In every run each frame that was taken from the link, but for one that
the router may hold, has the one fate that the rules assign to it; what is to
be reported comes up once, and what comes up while the queue of diagnostics has
room enters it, as nothing else does; and a board gets its own frames and no
others. -/
theorem every_frame_has_one_fate (hub : Hub) (acts : List Act) :
    let j := run hub acts
    (∃ done held, j.taken = done ++ held ∧ j.router.phase.Holds held
      ∧ List.Forall₂ (fun raw (e : Entry) => ∀ fate, e.hub.Assigns raw fate ↔ fate = e.fate)
          done j.fates)
    ∧ j.reports.map Report.diagnostic ++ j.router.phase.pending
      = j.fates.filterMap (fun e => e.fate.diagnostic?)
    ∧ j.diagnosed = (j.reports.filter (·.hub.diagnoses)).map Report.diagnostic
    ∧ ∀ i, j.deliveredTo i = (j.taken.zip j.fates).filterMap fun (raw, e) =>
        if e.hub.admits (.board i) then hub.frameFor? i raw else none := by
  intro j
  have hkept : Kept hub j := run_kept hub acts
  obtain ⟨done, held, htaken, hholds, hsettled⟩ := hkept.settled
  refine ⟨⟨done, held, htaken, hholds, ?_⟩, hkept.reports, hkept.diagnosed,
    hkept.deliveredTo_eq⟩
  refine hsettled.imp fun raw e hrule fate => ⟨fun hfate => hrule.2.unique hfate, ?_⟩
  rintro rfl
  exact hrule.2

end Journal

end Router

end BoardFlash
