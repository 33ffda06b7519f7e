import BoardFlash.Proofs.Bridge.Holding
import BoardFlash.Proofs.Router.Passage
import Mathlib.Data.List.Perm.Basic

/-!
# Between the router and the boards

A `Pipe` is all that lies between the queues of the sessions and the
boards: what the router holds, the queues between router and bridge, what
the bridge holds and the bytes on the link. `descending` and `ascending`
are the frames in it, on their way to the boards and from them, whether
they are still frames or already bytes.

A pipe is `Intact` if nothing in it can get lost: all bytes in it belong
to whole frames, and whoever is about to put something in a queue finds
room there. `Pipe.reply` is a link that works, however slowly.
`Intact.serve` is the main result: with such a link a step of the bridge
keeps the pipe intact and moves frames within it, but none into it or out
of it.
-/

namespace BoardFlash

/-! ## What is held between two steps -/

namespace Router.Phase

/-- A frame that is about to be queued for the link. -/
def outgoing : Phase → List Frame
  | .pushing _ f => [f]
  | _ => []

/-- A frame from the link that is about to be delivered. -/
def incoming : Phase → List Frame
  | .dispatching f => [f]
  | _ => []

end Router.Phase

/-! ## A link that works -/

/-- What lies between the router's peers and the boards. -/
structure Pipe where
  router : Router.Phase
  link : Duplex (List UInt8)
  bridge : Bridge.Phase
  /-- Bytes that no board has read yet. -/
  toBoards : List UInt8
  /-- Bytes that the bridge has not read yet. -/
  fromBoards : List UInt8

namespace Pipe

theorem portion_le_most (p : Pipe) (n most : Nat) :
    (p.fromBoards.take (min (n + 1) most)).length ≤ most :=
  Link.length_take_le_most p.fromBoards (n + 1) most

theorem portion_le_length (n : Nat) (bytes : List UInt8) :
    min (n + 1) bytes.length < bytes.length + 1 :=
  Link.min_lt_length_succ (n + 1) bytes

/-- The link gives and takes bytes in portions of any size but never fails;
without a portion a call is interrupted. -/
def reply (p : Pipe) (portion : Option Nat) : Link
  | .available => .ok (Nat.min (portion.getD 0) p.fromBoards.length)
  | .read most =>
    match portion with
    | some n => .ok ⟨p.fromBoards.take (min (n + 1) most), p.portion_le_most n most⟩
    | none => .error (.ofKind .interrupted)
  | .write bytes =>
    match portion with
    | some n => .ok ⟨min (n + 1) bytes.length, portion_le_length n bytes⟩
    | none => .error (.ofKind .interrupted)
  | .flush => .ok ()

/-- A read waits for the first byte. -/
def starved (p : Pipe) : Bool :=
  match p.bridge with
  | .reading .. => p.fromBoards.isEmpty
  | _ => false

/-- The call that the bridge is about to make. -/
def call? (p : Pipe) : Option Link.Call := Bridge.call? ⟨p.bridge⟩

/-- After the bridge has made its call and come to this phase and to these
queues. -/
def served (p : Pipe) (portion : Option Nat) (bridge : Bridge.Phase)
    (link : Duplex (List UInt8)) : Pipe where
  router := p.router
  link
  bridge
  toBoards := p.toBoards ++ Link.sent (p.reply portion) p.call?
  fromBoards := p.fromBoards.drop (Link.received (p.reply portion) p.call?).length

/-! ## The frames in the pipe -/

/-- The frames on their way to the boards. -/
def descending (p : Pipe) : List Frame :=
  p.router.outgoing ++ p.link.forth.items.filterMap Frame.read?
    ++ Frame.cut (p.toBoards ++ p.bridge.unwritten)

/-- The frames on their way from the boards. -/
def ascending (p : Pipe) : List Frame :=
  Frame.cut (p.bridge.held ++ p.fromBoards) ++ p.link.back.items.filterMap Frame.read?
    ++ p.router.incoming

/-- Nothing in the pipe can get lost. -/
structure Intact (p : Pipe) : Prop where
  bridge : p.bridge.Fit
  forthOpen : p.link.forth.senderOpen = true ∧ p.link.forth.receiverOpen = true
  backOpen : p.link.back.receiverOpen = true
  forthRoom : p.router.reserves = true → p.link.forth.isFull = false
  backRoom : p.bridge.reserves = true → p.link.back.isFull = false
  forth : ∀ raw ∈ p.link.forth.items, ∃ f : Frame, f.encode = raw
  back : ∀ raw ∈ p.link.back.items, ∃ f : Frame, f.encode = raw
  written : Frame.Whole (p.toBoards ++ p.bridge.unwritten)
  read : Frame.Whole (p.bridge.held ++ p.fromBoards)
  /-- What comes from the boards are answers to the host. -/
  answers : ∀ f ∈ p.ascending, f.type ≠ .cliData ∧ f.dest = hostId

/-- Frames have been moved within the pipe only. -/
structure Moves (p p' : Pipe) : Prop where
  intact : p'.Intact
  descending : p'.descending.Perm p.descending
  ascending : p'.ascending.Perm p.ascending

/-! ## What the link replies -/

section

variable {p : Pipe} {portion : Option Nat}

theorem received_read {most : Nat} {bytes : (Link.Call.read most).Result}
    (hreply : p.reply portion (.read most) = .ok bytes) :
    Link.received (p.reply portion) (some (.read most)) = bytes.val
      ∧ p.fromBoards = bytes.val ++ p.fromBoards.drop bytes.val.length := by
  refine ⟨by rw [Link.received, hreply], ?_⟩
  cases portion with
  | none => cases hreply
  | some n =>
      obtain rfl := Except.ok.inj hreply
      exact List.prefix_iff_eq_append.mp (List.take_prefix _ _) |>.symm

theorem sent_write {bytes : List UInt8} {n : (Link.Call.write bytes).Result}
    (hreply : p.reply portion (.write bytes) = .ok n) :
    Link.sent (p.reply portion) (some (.write bytes)) = bytes.take n.val := by
  rw [Link.sent, hreply]

/-- A working link is no reason for the bridge to fail. -/
theorem reply_no_fault {c : Link.Call} (hfit : p.bridge.Fit) (hstarved : p.starved = false)
    (hcall : p.call? = some c) : Bridge.fault? c (p.reply portion c) = none := by
  unfold call? Bridge.call? at hcall
  split at hcall
  · cases hcall
    rfl
  · next got missing hp =>
    cases hcall
    dsimp only at hp
    cases portion with
    | none => rfl
    | some n =>
        refine if_neg fun hnil => ?_
        dsimp only at hnil
        rw [hp] at hfit
        simp only [starved, hp, List.isEmpty_eq_false_iff] at hstarved
        have hpos := hfit.1
        rw [List.take_eq_nil_iff] at hnil
        rcases hnil with hnil | hnil
        · omega
        · exact hstarved hnil
  · next rest hp =>
    cases hcall
    dsimp only at hp
    cases portion with
    | none => rfl
    | some n =>
        refine if_neg fun hzero => ?_
        dsimp only at hzero
        rw [hp] at hfit
        have hpos := List.length_pos_iff.mpr hfit
        omega
  · cases hcall
    rfl
  · cases hcall

end

/-! ## Steps of the bridge -/

section

variable {p : Pipe}

/-- The bridge holds other parts of the same streams. -/
theorem Intact.reslice (h : p.Intact) {bridge : Bridge.Phase} {toBoards fromBoards : List UInt8}
    (hfit : bridge.Fit) (hroom : bridge.reserves = true → p.link.back.isFull = false)
    (hwritten : toBoards ++ bridge.unwritten = p.toBoards ++ p.bridge.unwritten)
    (hread : bridge.held ++ fromBoards = p.bridge.held ++ p.fromBoards) :
    Moves p { p with bridge, toBoards, fromBoards } := by
  have hdescending : Pipe.descending { p with bridge, toBoards, fromBoards } = p.descending := by
    simp only [descending, hwritten]
  have hascending : Pipe.ascending { p with bridge, toBoards, fromBoards } = p.ascending := by
    simp only [ascending, hread]
  refine ⟨?_, .of_eq hdescending, .of_eq hascending⟩
  refine { h with bridge := hfit, backRoom := hroom, written := ?_, read := ?_, answers := ?_ }
  · rw [hwritten]
    exact h.written
  · rw [hread]
    exact h.read
  · rw [hascending]
    exact h.answers

theorem Intact.store (h : p.Intact) {raw : List UInt8} {back : Queue (List UInt8)}
    (hp : p.bridge = .storing raw) (hsent : p.link.back.trySend raw = .ok back) :
    Moves p { p with bridge := .fetching, link := { p.link with back } } := by
  obtain ⟨f, rfl⟩ : ∃ f : Frame, f.encode = raw := by
    have hfit := h.bridge
    rwa [hp] at hfit
  obtain ⟨-, -, rfl⟩ := Queue.trySend_eq_ok_iff.mp hsent
  have hread := h.read
  have hwritten := h.written
  rw [hp] at hread hwritten
  have hascending : (Pipe.ascending { p with
      bridge := .fetching
      link := { p.link with
        back := { p.link.back with items := p.link.back.items ++ [f.encode] } } }).Perm
      p.ascending := by
    rw [List.perm_iff_count]
    intro g
    simp only [ascending, hp, Bridge.Phase.held, List.nil_append, Frame.cut_encode_append,
      List.filterMap_append, List.filterMap_cons, Frame.read?_encode, List.filterMap_nil,
      List.count_append, List.count_cons, List.count_nil]
    omega
  refine ⟨?_, ?_, hascending⟩
  · refine { h with
      bridge := trivial, backRoom := ?_, back := ?_, written := hwritten
      read := hread.of_encode_append, answers := ?_ }
    · exact fun hreserves => nomatch hreserves
    · intro raw hraw
      rcases List.mem_append.mp hraw with hraw | hraw
      · exact h.back raw hraw
      · exact ⟨f, (List.mem_singleton.mp hraw).symm⟩
    · exact fun g hg => h.answers g (hascending.mem_iff.mp hg)
  · rw [descending, descending, hp]
    exact .refl _

theorem Intact.fetch (h : p.Intact) {raw : List UInt8} {forth : Queue (List UInt8)}
    (hp : p.bridge = .fetching) (htaken : p.link.forth.tryRecv = .ok (raw, forth)) :
    Moves p { p with bridge := .toWrite raw, link := { p.link with forth } } := by
  obtain ⟨hitems, hforth⟩ := Queue.tryRecv_eq_ok_iff.mp htaken
  obtain ⟨f, rfl⟩ := h.forth raw (by rw [hitems]; exact List.mem_cons_self)
  have hheld : p.bridge.held = [] := by rw [hp]; rfl
  have hunwritten : p.bridge.unwritten = [] := by rw [hp]; rfl
  have hread := h.read
  have hwhole := h.written
  rw [hheld] at hread
  rw [hunwritten, List.append_nil] at hwhole
  have hascending : Pipe.ascending { p with
      bridge := .toWrite f.encode, link := { p.link with forth } } = p.ascending := by
    simp only [ascending, Bridge.Phase.held_toWrite, hheld]
  refine ⟨?_, ?_, .of_eq hascending⟩
  · refine { h with
      bridge := Bridge.Phase.fit_toWrite f.encode, forthOpen := ?_, forthRoom := ?_, backRoom := ?_
      forth := ?_, written := ?_, read := ?_, answers := ?_ }
    · rw [hforth]
      exact h.forthOpen
    · intro hreserves
      have hroom := h.forthRoom hreserves
      rw [hforth]
      rw [Queue.isFull_eq_false_iff, hitems, List.length_cons] at hroom
      exact Queue.isFull_eq_false_iff.mpr (Nat.lt_of_succ_lt hroom)
    · intro hreserves
      rw [Bridge.Phase.reserves_toWrite] at hreserves
      cases hreserves
    · intro raw hraw
      exact h.forth raw (by rw [hitems]; exact List.mem_cons_of_mem _ hraw)
    · rw [Bridge.Phase.unwritten_toWrite]
      exact hwhole.append (.of_frame f)
    · rw [Bridge.Phase.held_toWrite]
      exact hread
    · rw [hascending]
      exact h.answers
  · rw [List.perm_iff_count]
    intro g
    have hcut := hwhole.cut_append (f.encode ++ [])
    rw [Frame.cut_encode_append, Frame.cut_nil, List.append_nil] at hcut
    simp only [descending, Bridge.Phase.unwritten_toWrite, hunwritten, List.append_nil,
      hcut, hitems, List.filterMap_cons, Frame.read?_encode, List.count_append, List.count_cons,
      List.count_nil]
    omega

theorem served_of_silent {portion : Option Nat} {bridge : Bridge.Phase}
    {link : Duplex (List UInt8)} (hreceived : Link.received (p.reply portion) p.call? = [])
    (hsent : Link.sent (p.reply portion) p.call? = []) :
    p.served portion bridge link = { p with bridge, link } := by
  rw [served, hreceived, hsent, List.append_nil, List.length_nil, List.drop_zero]

theorem Intact.read_some (h : p.Intact) {portion : Option Nat} {got : List UInt8} {missing : Nat}
    {bytes : (Link.Call.read missing).Result} {bridge : Bridge.Phase}
    (hp : p.bridge = .reading got missing) (hreply : p.reply portion (.read missing) = .ok bytes)
    (hfit : bridge.Fit) (hheld : bridge.held = got ++ bytes.val)
    (hunwritten : bridge.unwritten = []) : Moves p (p.served portion bridge p.link) := by
  have hcall : p.call? = some (.read missing) := by rw [call?, Bridge.call?, hp]
  obtain ⟨hreceived, hsplit⟩ := received_read hreply
  refine h.reslice hfit (fun _ => h.backRoom (by rw [hp]; rfl)) ?_ ?_
  · rw [hcall, hunwritten, hp]
    exact List.append_nil _
  · rw [hcall, hreceived, hheld, hp, List.append_assoc, ← hsplit]
    rfl

/-- The stream that the bridge is reading, up to the bytes that it has just
read. -/
theorem Intact.whole_read (h : p.Intact) {portion : Option Nat} {got : List UInt8} {missing : Nat}
    {bytes : (Link.Call.read missing).Result} (hp : p.bridge = .reading got missing)
    (hreply : p.reply portion (.read missing) = .ok bytes) :
    Frame.Whole (got ++ bytes.val ++ p.fromBoards.drop bytes.val.length) := by
  have hread := h.read
  rw [hp, (received_read hreply).2, ← List.append_assoc] at hread
  exact hread

/-- A step of the bridge, with a link that works, moves frames within the
pipe; none gets lost. -/
theorem Intact.serve (h : p.Intact) {portion : Option Nat} {t t' : Trunk} {b' : Bridge}
    (hqueues : t.queues = p.link) (hcancelled : t.cancelled = false)
    (hstarved : p.starved = false)
    (hstep : Bridge.Passage ⟨p.bridge⟩ t (p.reply portion) b' t') :
    Moves p (p.served portion b'.phase t'.queues) ∧ t'.cancelled = false
      ∧ t'.alarm = t.alarm := by
  have hfit := h.bridge
  cases hstep with
  | quiet before after trunk room =>
      subst trunk
      obtain ⟨hreceived, hsent⟩ := Bridge.silent_of_free before (p.reply portion)
      refine ⟨?_, hcancelled, rfl⟩
      rw [served_of_silent hreceived hsent, hqueues]
      refine h.reslice (Bridge.Phase.fit_of_free after) (fun hreserves => ?_) ?_ ?_
      · rw [← hqueues]
        refine room ?_
        cases hphase : b'.phase with
        | polling => rfl
        | reading | storing => rw [hphase] at after; cases after
        | _ => rw [hphase] at hreserves; cases hreserves
      · rw [Bridge.Phase.unwritten_of_free after, Bridge.Phase.unwritten_of_free before]
      · rw [Bridge.Phase.held_of_free after, Bridge.Phase.held_of_free before]
  | start n before reply enough after trunk =>
      subst trunk
      dsimp only at before
      have hfree : p.bridge.free = true := by rw [before]; rfl
      obtain ⟨hreceived, hsent⟩ := Bridge.silent_of_free (b := ⟨p.bridge⟩) hfree (p.reply portion)
      refine ⟨?_, hcancelled, rfl⟩
      rw [served_of_silent hreceived hsent, hqueues, after]
      refine h.reslice Frame.expects_nil (fun _ => h.backRoom (by rw [before]; rfl)) ?_ ?_
      · rw [Bridge.Phase.unwritten_of_free hfree]
        rfl
      · rw [Bridge.Phase.held_of_free hfree]
        rfl
  | read got missing bytes before reply few after trunk =>
      subst trunk
      dsimp only at before
      refine ⟨?_, hcancelled, rfl⟩
      rw [before] at hfit
      rw [after, hqueues]
      exact h.read_some before reply (Frame.Expects.more hfit few) rfl rfl
  | header got missing n bytes before reply all complete announced after trunk =>
      subst trunk
      dsimp only at before
      refine ⟨?_, hcancelled, rfl⟩
      obtain ⟨n', hn', hexpects⟩ := Frame.Expects.header (h.whole_read before reply) complete
      obtain rfl := Option.some.inj (hn'.symm.trans announced)
      rw [after, hqueues]
      exact h.read_some before reply hexpects rfl rfl
  | garble got missing bytes before reply all complete announced after trunk =>
      obtain ⟨n, hn, -⟩ := Frame.Expects.header (h.whole_read before reply) complete
      rw [announced] at hn
      cases hn
  | whole got missing bytes before reply all complete after trunk =>
      subst trunk
      dsimp only at before
      refine ⟨?_, hcancelled, rfl⟩
      rw [before] at hfit
      rw [after, hqueues]
      exact h.read_some before reply
        (Frame.Expects.whole hfit (h.whole_read before reply) all complete) rfl rfl
  | cut got missing e before reply why after trunk =>
      cases portion with
      | none =>
          obtain rfl := Except.error.inj reply
          cases why
      | some n => cases reply
  | store raw back before sent after trunk =>
      subst trunk
      dsimp only at before
      refine ⟨?_, hcancelled, rfl⟩
      have hcall : p.call? = none := by rw [call?, Bridge.call?, before]
      rw [served_of_silent (by rw [hcall]; rfl) (by rw [hcall]; rfl), after]
      rw [hqueues] at sent ⊢
      exact h.store before sent
  | overflow raw why before refused after trunk =>
      have hroom := h.backRoom (by rw [show p.bridge = _ from before]; rfl)
      rw [hqueues, Queue.trySend, h.backOpen, hroom] at refused
      cases refused
  | fetch raw forth before taken after trunk =>
      subst trunk
      dsimp only at before
      refine ⟨?_, hcancelled, rfl⟩
      have hcall : p.call? = none := by rw [call?, Bridge.call?, before]
      rw [served_of_silent (by rw [hcall]; rfl) (by rw [hcall]; rfl), after]
      rw [hqueues] at taken ⊢
      exact h.fetch before taken
  | write rest n before reply progress after trunk =>
      subst trunk
      dsimp only at before
      refine ⟨?_, hcancelled, rfl⟩
      have hcall : p.call? = some (.write rest) := by rw [call?, Bridge.call?, before]
      rw [after, hqueues]
      refine h.reslice (Bridge.Phase.fit_toWrite _) (fun hreserves => ?_) ?_ ?_
      · rw [Bridge.Phase.reserves_toWrite] at hreserves
        cases hreserves
      · rw [hcall, sent_write reply, Bridge.Phase.unwritten_toWrite, List.append_assoc,
          List.take_append_drop, before]
        rfl
      · rw [hcall, Bridge.Phase.held_toWrite, before]
        rfl
  | again c e call reply why after trunk =>
      subst trunk
      refine ⟨?_, hcancelled, rfl⟩
      have hcall : p.call? = some c := call
      obtain ⟨hreceived, hsent⟩ := Link.silent_of_error reply
      rw [served_of_silent (by rw [hcall, hreceived]) (by rw [hcall, hsent]), hqueues, after]
      exact h.reslice h.bridge h.backRoom rfl rfl
  | fail c e call why after trunk =>
      rw [reply_no_fault h.bridge hstarved call] at why
      cases why
  | alarm e before after trunk =>
      rw [show p.bridge = _ from before] at hfit
      exact hfit.elim
  | raise e before after trunk =>
      rw [show p.bridge = _ from before] at hfit
      exact hfit.elim
  | stop before after trunk =>
      rcases before with ⟨-, hstop⟩ | ⟨-, hclosed⟩
      · rw [hcancelled] at hstop
        cases hstop
      · rw [hqueues, Queue.tryRecv] at hclosed
        split at hclosed
        · cases hclosed
        · rw [h.forthOpen.1] at hclosed
          cases hclosed
  | release failure before after trunk =>
      rw [show p.bridge = _ from before] at hfit
      exact hfit.elim
  | stopped failure before after trunk =>
      rw [show p.bridge = _ from before] at hfit
      exact hfit.elim

/-! ## Boards at the end of the pipe -/

/-- A board has written the frame. -/
def put (p : Pipe) (f : Frame) : Pipe := { p with fromBoards := p.fromBoards ++ f.encode }

theorem Intact.hear (h : p.Intact) {f : Frame} {rest : List UInt8}
    (hsplit : Frame.split? p.toBoards = some (f, rest)) :
    Pipe.Intact { p with toBoards := rest }
      ∧ p.descending.Perm (f :: Pipe.descending { p with toBoards := rest })
      ∧ Pipe.ascending { p with toBoards := rest } = p.ascending := by
  have hbytes := Frame.split?_eq_some_iff.mp hsplit
  have hwritten := h.written
  rw [hbytes, List.append_assoc] at hwritten
  refine ⟨{ h with written := hwritten.of_encode_append, answers := h.answers }, ?_, rfl⟩
  rw [List.perm_iff_count]
  intro g
  simp only [descending, hbytes, List.append_assoc, Frame.cut_encode_append, List.count_append,
    List.count_cons]
  omega

theorem Intact.put (h : p.Intact) {f : Frame} (htype : f.type ≠ .cliData)
    (hdest : f.dest = hostId) :
    (p.put f).Intact
      ∧ (p.put f).descending = p.descending
      ∧ (p.put f).ascending.Perm (f :: p.ascending) := by
  have hcut : Frame.cut (p.bridge.held ++ (p.fromBoards ++ f.encode))
      = Frame.cut (p.bridge.held ++ p.fromBoards) ++ [f] := by
    have happend := h.read.cut_append (f.encode ++ [])
    rw [Frame.cut_encode_append, Frame.cut_nil, List.append_nil] at happend
    rw [← List.append_assoc, happend]
  have hascending : (p.put f).ascending.Perm (f :: p.ascending) := by
    rw [List.perm_iff_count]
    intro g
    simp only [ascending, Pipe.put, hcut, List.count_append, List.count_cons, List.count_nil]
    omega
  refine ⟨{ h with read := ?_, answers := ?_ }, rfl, hascending⟩
  · rw [Pipe.put, ← List.append_assoc]
    exact h.read.append (.of_frame f)
  · intro g hg
    rcases List.mem_cons.mp (hascending.mem_iff.mp hg) with rfl | hg
    · exact ⟨htype, hdest⟩
    · exact h.answers g hg

end

end Pipe

end BoardFlash
