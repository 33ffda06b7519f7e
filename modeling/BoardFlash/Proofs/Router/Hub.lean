import BoardFlash.Router.Hub
import Mathlib.Data.List.Nodup

/-!
# Peers and their queues

Replacing the queues of one peer leaves those of the others alone
(`queues?_setQueues`), and no move ever changes which boards the routes
belong to or whether there is a console (`SameRoutes`). Whether a queue
takes a frame is `Hub.admits`.
-/

namespace BoardFlash

namespace Hub

/-! ## Replacing queues -/

@[simp] theorem setQueues_link (h : Hub) (peer : Peer) (d : Duplex Frame) :
    (h.setQueues peer d).link = h.link := by
  cases peer <;> rfl

@[simp] theorem setQueues_cancelled (h : Hub) (peer : Peer) (d : Duplex Frame) :
    (h.setQueues peer d).cancelled = h.cancelled := by
  cases peer <;> rfl

@[simp] theorem setQueues_diagnostics (h : Hub) (peer : Peer) (d : Duplex Frame) :
    (h.setQueues peer d).diagnostics = h.diagnostics := by
  cases peer <;> rfl

theorem queues?_setQueues (h : Hub) (peer p : Peer) (d : Duplex Frame) :
    (h.setQueues peer d).queues? p
      = if p = peer then (h.queues? peer).map fun _ => d else h.queues? p := by
  cases peer with
  | console => cases p <;> simp [setQueues, queues?]
  | board i =>
      cases p with
      | console => simp [setQueues, queues?]
      | board k =>
          simp only [setQueues, queues?, List.getElem?_modify, Peer.board.injEq]
          by_cases hk : i = k
          · subst hk
            cases h.routes[i]? <;> simp
          · simp [hk, Ne.symm hk]

theorem queues?_setQueues_self {h : Hub} {peer : Peer} {d : Duplex Frame}
    (hd : h.queues? peer = some d) (d' : Duplex Frame) :
    (h.setQueues peer d').queues? peer = some d' := by
  rw [queues?_setQueues, if_pos rfl, hd]
  rfl

theorem queues?_setQueues_ne {h : Hub} {peer p : Peer} (hp : p ≠ peer) (d : Duplex Frame) :
    (h.setQueues peer d).queues? p = h.queues? p := by
  rw [queues?_setQueues, if_neg hp]

theorem setQueues_self {h : Hub} {peer : Peer} {d : Duplex Frame} (hd : h.queues? peer = some d) :
    h.setQueues peer d = h := by
  cases peer with
  | console =>
      rw [queues?] at hd
      simp only [setQueues, hd, Option.map_some]
      rw [← hd]
  | board i =>
      obtain ⟨r, hr, rfl⟩ := Option.map_eq_some_iff.mp hd
      have hroutes : h.routes.modify i (fun r' => { r' with queues := r.queues }) = h.routes := by
        refine List.ext_getElem? fun k => ?_
        rw [List.getElem?_modify]
        by_cases hk : i = k
        · subst hk
          simp [hr]
        · simp [hk]
      rw [setQueues, hroutes]

/-! ## Routes one by one -/

theorem queues?_board {h : Hub} {i : Nat} {d : Duplex Frame} (hd : h.queues? (.board i) = some d) :
    ∃ r, h.routes[i]? = some r ∧ r.queues = d :=
  Option.map_eq_some_iff.mp hd

theorem route_setQueues {h : Hub} {i : Nat} {r : Route} (hr : h.routes[i]? = some r)
    (d : Duplex Frame) :
    (h.setQueues (.board i) d).routes[i]? = some { r with queues := d } := by
  simp [setQueues, hr]

theorem route_setQueues_ne {h : Hub} {i k : Nat} (hk : k ≠ i) (d : Duplex Frame) :
    (h.setQueues (.board k) d).routes[i]? = h.routes[i]? := by
  simp [setQueues, hk]

/-! ## The routes stay -/

/-- The ids of the boards, route by route. -/
def ids (h : Hub) : List UInt8 := h.routes.map Route.board

/-- The same boards have routes, and there is a console in both or in none. -/
structure SameRoutes (h h' : Hub) : Prop where
  ids : h'.ids = h.ids
  console : h'.console.isSome = h.console.isSome

theorem SameRoutes.refl (h : Hub) : SameRoutes h h := ⟨rfl, rfl⟩

theorem SameRoutes.trans {h h' h'' : Hub} (a : SameRoutes h h') (b : SameRoutes h' h'') :
    SameRoutes h h'' :=
  ⟨b.ids.trans a.ids, b.console.trans a.console⟩

theorem SameRoutes.console_eq_none {h h' : Hub} (a : SameRoutes h h') (hc : h.console = none) :
    h'.console = none := by
  have hsome := a.console
  rw [hc] at hsome
  simpa using hsome

theorem SameRoutes.exists_route {h h' : Hub} (a : SameRoutes h h') {i : Nat} {r' : Route}
    (hr' : h'.routes[i]? = some r') : ∃ r, h.routes[i]? = some r ∧ r.board = r'.board := by
  have hid : h.ids[i]? = some r'.board := by
    rw [← a.ids]
    simp [Hub.ids, hr']
  rw [Hub.ids, List.getElem?_map] at hid
  exact Option.map_eq_some_iff.mp hid

theorem sameRoutes_setQueues (h : Hub) (peer : Peer) (d : Duplex Frame) :
    SameRoutes h (h.setQueues peer d) := by
  cases peer with
  | board i =>
      refine ⟨List.ext_getElem? fun k => ?_, rfl⟩
      simp only [ids, setQueues, List.getElem?_map, List.getElem?_modify]
      by_cases hk : i = k
      · subst hk
        cases h.routes[i]? <;> simp
      · simp [hk]
  | console => exact ⟨rfl, by cases hc : h.console <;> simp [setQueues, hc]⟩

theorem sameRoutes_release (h : Hub) : SameRoutes h h.release := by
  refine ⟨?_, ?_⟩
  · simp [ids, release, Function.comp_def]
  · cases hc : h.console <;> simp [release, hc]

theorem sameRoutes_apply (h : Hub) (move : Move) : SameRoutes h (h.apply move) := by
  unfold apply respond
  cases move with
  | submit peer frame | collect peer n | hangUp peer halves =>
      dsimp only
      split
      · exact sameRoutes_setQueues ..
      · exact .refl h
  | _ => exact ⟨rfl, rfl⟩

/-! ## Where frames go -/

/-- The peer exists, and its queue is open and has room. -/
def admits (h : Hub) (peer : Peer) : Bool :=
  (h.queues? peer).any fun d => d.back.receiverOpen && !d.back.isFull

theorem admits_of_trySend {h : Hub} {peer : Peer} {d : Duplex Frame} {f : Frame}
    {q : Queue Frame} (hd : h.queues? peer = some d) (hq : d.back.trySend f = .ok q) :
    h.admits peer = true := by
  obtain ⟨hopen, hroom, -⟩ := Queue.trySend_eq_ok_iff.mp hq
  simp [admits, hd, hopen, Queue.isFull, hroom]

theorem not_admits_of_refused {h : Hub} {peer : Peer} {f : Frame}
    (hrefused : ∀ d, h.queues? peer = some d → ∃ why, d.back.trySend f = .error why) :
    h.admits peer = false := by
  unfold admits
  cases hd : h.queues? peer with
  | none => rfl
  | some d =>
      obtain ⟨why, hwhy⟩ := hrefused d hd
      rw [Queue.trySend] at hwhy
      cases hopen : d.back.receiverOpen with
      | false => simp [hopen]
      | true =>
          cases hfull : d.back.isFull with
          | true => simp [hfull]
          | false => simp [hopen, hfull] at hwhy

/-- The first route of the board is the `i`-th. -/
def isRouteOf (h : Hub) (i : Nat) (board : UInt8) : Prop := h.ids.findIdx? (· = board) = some i

theorem isRouteOf_unique {h : Hub} {i k : Nat} {board : UInt8} (hi : h.isRouteOf i board)
    (hk : h.isRouteOf k board) : i = k :=
  Option.some.inj (hi.symm.trans hk)

theorem board_of_isRouteOf {h : Hub} {i : Nat} {r : Route} {board : UInt8}
    (hroute : h.isRouteOf i board) (hr : h.routes[i]? = some r) : r.board = board := by
  obtain ⟨hi, hboard, -⟩ := List.findIdx?_eq_some_iff_getElem.mp hroute
  have hid : h.ids[i]? = some r.board := by simp [ids, hr]
  rw [List.getElem?_eq_getElem hi] at hid
  rw [← Option.some.inj hid]
  simpa using hboard

/-- Boards with ids of their own have routes of their own. -/
theorem isRouteOf_of_nodup {h : Hub} (hnodup : h.ids.Nodup) {i : Nat} {r : Route}
    (hr : h.routes[i]? = some r) : h.isRouteOf i r.board := by
  have hid : h.ids[i]? = some r.board := by simp [ids, hr]
  obtain ⟨hi, hboard⟩ := List.getElem?_eq_some_iff.mp hid
  refine List.findIdx?_eq_some_iff_getElem.mpr ⟨hi, by simpa using hboard, fun k hk => ?_⟩
  intro hsame
  have hsame' : h.ids[k] = h.ids[i] := hboard ▸ of_decide_eq_true hsame
  exact absurd (hnodup.getElem_inj_iff.mp hsame') (Nat.ne_of_lt hk)

theorem isRouteOf_iff {h : Hub} {i : Nat} {board : UInt8} :
    h.isRouteOf i board ↔
      h.routes.findIdx? (·.board = board) = some i := by
  simp only [isRouteOf, ids, List.findIdx?_map]
  rfl

theorem destination_peer {h : Hub} {f : Frame} {peer : Peer} (hd : h.destination f = .peer peer) :
    (f.type = .cliData ∧ peer = .console)
    ∨ (f.type ≠ .cliData ∧ f.dest = hostId ∧ ∃ i, h.isRouteOf i f.source ∧ peer = .board i) := by
  unfold destination at hd
  split at hd
  · next htype =>
    split at hd
    · exact .inl ⟨htype, (Destination.peer.inj hd).symm⟩
    · cases hd
  · next htype =>
    split at hd
    · cases hd
    · next hdest =>
      split at hd
      · next i hi =>
        exact .inr ⟨htype, by simpa using hdest, i, isRouteOf_iff.mpr hi,
          (Destination.peer.inj hd).symm⟩
      · cases hd

theorem destination_report {h : Hub} {f : Frame} {d : Diagnostic}
    (hd : h.destination f = .report d) :
    (f.type = .cliData ∧ h.console = none ∧ d = .undelivered f)
    ∨ (f.type ≠ .cliData ∧ f.dest ≠ hostId ∧ d = .notForHost f)
    ∨ (f.type ≠ .cliData ∧ f.dest = hostId ∧ (∀ i, ¬ h.isRouteOf i f.source)
      ∧ d = .unknownSource f) := by
  unfold destination at hd
  split at hd
  · next htype =>
    split at hd
    · cases hd
    · next hc => exact .inl ⟨htype, by simpa using hc, (Destination.report.inj hd).symm⟩
  · next htype =>
    split at hd
    · next hdest => exact .inr (.inl ⟨htype, hdest, (Destination.report.inj hd).symm⟩)
    · next hdest =>
      split at hd
      · cases hd
      · next hnone =>
        refine .inr (.inr ⟨htype, by simpa using hdest, fun i hi => ?_,
          (Destination.report.inj hd).symm⟩)
        rw [isRouteOf_iff, hnone] at hi
        cases hi

theorem destination_of_isRouteOf {h : Hub} {f : Frame} {i : Nat} (htype : f.type ≠ .cliData)
    (hdest : f.dest = hostId) (hroute : h.isRouteOf i f.source) :
    h.destination f = .peer (.board i) := by
  rw [isRouteOf_iff] at hroute
  simp [destination, htype, hdest, hroute]

end Hub

end BoardFlash
