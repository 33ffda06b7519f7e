import BoardFlash.Proofs.Session.Journal
import BoardFlash.Proofs.Session.Waiting

/-!
# A session does what the protocol says

Where a session stands tells where the protocol does, and which frame is still
to be queued (`Session.outlook`). In an undisturbed run a step of the session
changes nothing in this respect, or it queues the frame, or it ends an exchange
and the outlook moves on as the protocol does with the answer of the window
(`Journal.Moves`, `step_moves`). So what a session has sent and how it ends is
what `Reference.after` says for the answers, for all images, all limits and all
answers (`Journal.refines_reference`).

Whether an answer counts is a matter of time. It does if it is in the queue while
the session waits and there are steps enough to it before the deadline, since each
of them brings the session nearer (`InTime.step`). So only a session that is not
given its steps misses one.

A session keeps count of the frames that it sends again. A board that refuses
more of them than the counter can tell makes the session break down; that is
the only way in which it leaves the protocol.
-/

namespace BoardFlash

namespace Session

/-! ## Where the protocol stands -/

/-- Where the protocol stands for a session in the state, with the frame that
is still to be queued. -/
def outlookIn (s : Session) : State → Reference
  | .requesting => ⟨[Reference.request s.board s.image], .asking s.cursor.rest⟩
  | .preparing => .offer s.board s.maxTransmissions s.cursor.rest s.maxTransmissions.toNat
  | .sending _ n =>
    .offer s.board s.maxTransmissions s.cursor.rest (s.maxTransmissions.toNat - n.toNat)
  | .done failure _ => ⟨[], .over failure⟩

def outlook (s : Session) : Reference :=
  match s.phase with
  | .waiting => s.outlookIn .requesting
  | .boundary state | .entered state => s.outlookIn state
  | .clearing x | .beforeSend x | .placing x => s.outlookIn x.state
  | .beforeAnswer x | .receiving x => ⟨[], (s.outlookIn x.state).state⟩
  | .finished failure _ => ⟨[], .over failure⟩
  | .lost _ | .crashed _ => ⟨[], .over none⟩

theorem length_sent_outlook_le (s : Session) : s.outlook.sent.length ≤ 1 := by
  have hin (state : State) : (s.outlookIn state).sent.length ≤ 1 := by
    cases state with
    | requesting => exact Nat.le_refl 1
    | preparing | sending => exact Reference.length_sent_offer_le ..
    | done => exact Nat.zero_le 1
  unfold outlook
  split <;> first | exact hin _ | exact Nat.zero_le 1

theorem sent_outlook_of_over {s : Session} {failure : Option Failure}
    (h : s.outlook.state = .over failure) : s.outlook.sent = [] := by
  have hin {state : State} (h : (s.outlookIn state).state = .over failure) :
      (s.outlookIn state).sent = [] := by
    cases state with
    | requesting => cases h
    | preparing | sending => exact Reference.sent_offer_of_over h
    | done => rfl
  unfold outlook at h ⊢
  split at h <;> first | exact hin h | rfl

/-- What the protocol waits for while the frame of the exchange is with the
board. -/
def awaited (s : Session) (x : Exchange) : Reference.State :=
  match x.purpose with
  | .request => .asking s.cursor.rest
  | .chunk n => .moving s.cursor.rest (s.maxTransmissions.toNat - (n.toNat + 1))

theorem outlookIn_exchange {s : Session} {x : Exchange} (hsize : 0 < s.cursor.chunkSize)
    (hfits : x.Fits s.board s.image s.cursor)
    (hwithin : ∀ n, x.purpose = .chunk n → n < s.maxTransmissions) :
    s.outlookIn x.state = ⟨[x.frame.message], s.awaited x⟩ := by
  unfold Exchange.state awaited
  cases hp : x.purpose with
  | request =>
      obtain ⟨htype, hsource, hdest, hpayload⟩ := hfits.request hp
      simp only [outlookIn, Reference.request, Frame.message, htype, hsource, hdest, hpayload]
  | chunk n =>
      obtain ⟨htype, hsource, hdest, hpayload⟩ := hfits.chunk hp
      have hlt := UInt32.lt_iff_toNat_lt.mp (hwithin n hp)
      have htries : s.maxTransmissions.toNat - n.toNat
          = s.maxTransmissions.toNat - (n.toNat + 1) + 1 := by omega
      simp only [outlookIn, Cursor.rest_of_some hsize hpayload, htries, Reference.offer,
        Frame.message, htype, hsource, hdest]

/-- A frame is about to be sent again. -/
def Phase.resends : Phase → Bool
  | .boundary (.sending _ n) | .entered (.sending _ n) => decide (0 < n)
  | .clearing x | .beforeSend x | .placing x => x.again
  | _ => false

/-- The frames that were sent again, the one that is about to be included. -/
def resent (s : Session) : Nat := s.retransmissions.toNat + s.phase.resends.toNat

end Session

namespace Journal

/-- What a step of a session that is not over means to the protocol. -/
inductive Moves (j j' : Journal) : Prop
  | quiet (whole : ∀ fault, j'.post.session.phase ≠ .crashed fault)
      (outlook : j'.post.session.outlook = j.post.session.outlook)
      (resent : j'.post.session.resent ≤ j.post.session.resent)
      (sent : j'.sent = j.sent) (windows : j'.windows = j.windows)
  | send (f : Frame) (whole : ∀ fault, j'.post.session.phase ≠ .crashed fault)
      (before : j.post.session.outlook.sent = [f.message])
      (after : j'.post.session.outlook = ⟨[], j.post.session.outlook.state⟩)
      (resent : j'.post.session.resent ≤ j.post.session.resent)
      (sent : j'.sent = j.sent ++ [f]) (windows : j'.windows = j.windows)
  | answer (w : Window) (whole : ∀ fault, j'.post.session.phase ≠ .crashed fault)
      (before : j.post.session.outlook.sent = [])
      (after : j'.post.session.outlook = Reference.react j.post.session.board
        j.post.session.maxTransmissions j.post.session.outlook.state w.answer)
      (resent : j'.post.session.resent
        ≤ j.post.session.resent + (decide (w.answer = .nack)).toNat)
      (sent : j'.sent = j.sent) (windows : j'.windows = j.windows ++ [w])
  | overflow (f : Frame) (crashed : j'.post.session.phase = .crashed .counterOverflow)
      (before : j.post.session.outlook.sent = [f.message])
      (most : 4294967296 ≤ j.post.session.resent)
      (sent : j'.sent = j.sent ++ [f]) (windows : j'.windows = j.windows)

section

variable {j : Journal} {now : Instant} {next : Post}

theorem sent_stepped (h : next.mailbox.outbound.items = j.post.mailbox.outbound.items) :
    (j.stepped now next).sent = j.sent := by
  rw [stepped, h, List.drop_length, List.append_nil]

theorem sent_stepped_of_append {f : Frame}
    (h : next.mailbox.outbound.items = j.post.mailbox.outbound.items ++ [f]) :
    (j.stepped now next).sent = j.sent ++ [f] := by
  rw [stepped, h, List.drop_left]

theorem windows_stepped {w : Window} (h : j.closed? now next = some w) :
    (j.stepped now next).windows = j.windows ++ [w] := by
  rw [stepped, h]
  rfl

theorem windows_stepped_of_open (h : j.closed? now next = none) :
    (j.stepped now next).windows = j.windows := by
  rw [stepped, h]
  exact List.append_nil _

theorem Moves.of_quiet (hwhole : ∀ fault, next.session.phase ≠ .crashed fault)
    (houtlook : next.session.outlook = j.post.session.outlook)
    (hresent : next.session.resent ≤ j.post.session.resent)
    (houtbound : next.mailbox.outbound.items = j.post.mailbox.outbound.items)
    (hopen : j.closed? now next = none) : Moves j (j.stepped now next) :=
  .quiet hwhole houtlook hresent (sent_stepped houtbound) (windows_stepped_of_open hopen)

theorem Moves.of_answer {w : Window} (hwhole : ∀ fault, next.session.phase ≠ .crashed fault)
    (hbefore : j.post.session.outlook.sent = [])
    (hafter : next.session.outlook = Reference.react j.post.session.board
      j.post.session.maxTransmissions j.post.session.outlook.state w.answer)
    (hresent : next.session.resent ≤ j.post.session.resent + (decide (w.answer = .nack)).toNat)
    (houtbound : next.mailbox.outbound.items = j.post.mailbox.outbound.items)
    (hclosed : j.closed? now next = some w) : Moves j (j.stepped now next) :=
  .answer w hwhole hbefore hafter hresent (sent_stepped houtbound) (windows_stepped hclosed)

variable {board : UInt8} {image : Firmware} {limit : UInt32}

theorem Fit.chunkSize_pos (hcut : image.WellCut) (hfit : j.Fit board image limit) :
    0 < j.post.session.cursor.chunkSize := hfit.steady.chunkSize_pos hcut

theorem outlook_of_placing (hcut : image.WellCut) (hfit : j.Fit board image limit)
    {x : Session.Exchange} (hp : j.post.session.phase = .placing x) :
    j.post.session.outlook = ⟨[x.frame.message], j.post.session.awaited x⟩ := by
  have hfits := hfit.sound.phase
  have hwithin := hfit.refusals
  rw [← hfit.most] at hwithin
  rw [hp] at hfits hwithin
  rw [Session.outlook, hp]
  exact Session.outlookIn_exchange (hfit.chunkSize_pos hcut) hfits hwithin

theorem outlook_of_waiting (hcut : image.WellCut) (hfit : j.Fit board image limit)
    {x : Session.Exchange}
    (hp : j.post.session.phase = .beforeAnswer x ∨ j.post.session.phase = .receiving x) :
    j.post.session.outlook = ⟨[], j.post.session.awaited x⟩ := by
  have hfits := hfit.sound.phase
  have hwithin := hfit.refusals
  rw [← hfit.most] at hwithin
  rcases hp with hp | hp <;>
    · rw [hp] at hfits hwithin
      have hstate := Session.outlookIn_exchange (hfit.chunkSize_pos hcut) hfits hwithin
      simp only [Session.outlook, hp, hstate]

/-- What the session has passed over was no answer. -/
theorem Fit.first_answer (hfit : j.Fit board image limit) {x : Session.Exchange}
    (hx : j.post.session.phase.awaits? = some x) :
    j.arrived.findSome? Frame.answer? = j.post.mailbox.inbound.items.findSome? Frame.answer? := by
  have hwaits := hfit.waits
  obtain ⟨read, harrived, hread⟩ : ∃ read, j.arrived = read ++ j.post.mailbox.inbound.items
      ∧ ∀ f ∈ read, f.answer? = none := by
    rcases Session.Phase.awaits?_eq_some_iff.mp hx with hp | hp
    · rw [hp] at hwaits
      exact hwaits
    · rw [hp] at hwaits
      exact hwaits
  rw [harrived, List.findSome?_append, List.findSome?_eq_none_iff.mpr hread, Option.none_or]

/-- The answer that a session takes is the first one that came in. -/
theorem answer_of_taken (hfit : j.Fit board image limit) {x : Session.Exchange}
    (hp : j.post.session.phase = .receiving x) {frame : Frame} {inbound : Queue Frame}
    (htaken : j.post.mailbox.inbound.tryRecv = .ok (frame, inbound)) {a : Answer}
    (ha : frame.answer? = some a) : Window.answer ⟨j.arrived, inbound.items, false⟩ = a := by
  rw [Window.answer, hfit.first_answer (Session.Phase.awaits?_eq_some_iff.mpr (.inr hp)),
    (Queue.tryRecv_eq_ok_iff.mp htaken).1, List.findSome?_cons, ha]
  rfl

theorem Moves.of_taken (hcut : image.WellCut) (hfit : j.Fit board image limit)
    {x : Session.Exchange} (hp : j.post.session.phase = .receiving x) {frame : Frame}
    {inbound : Queue Frame} (htaken : j.post.mailbox.inbound.tryRecv = .ok (frame, inbound))
    {a : Answer} (ha : frame.answer? = some a) {state : Session.State}
    (hnext : next.session.phase = .boundary state) (hinbound : next.mailbox.inbound = inbound)
    (houtbound : next.mailbox.outbound = j.post.mailbox.outbound)
    (hcount : next.session.retransmissions = j.post.session.retransmissions)
    (hagain : (Session.Phase.boundary state).resends = true → a = .nack)
    (hafter : next.session.outlook = Reference.react j.post.session.board
      j.post.session.maxTransmissions (j.post.session.awaited x) a) :
    Moves j (j.stepped now next) := by
  have houtlook := outlook_of_waiting hcut hfit (.inr hp)
  have hanswer := answer_of_taken hfit hp htaken ha
  refine .of_answer (w := ⟨j.arrived, inbound.items, false⟩) (fun _ => by rw [hnext]; exact nofun)
    (by rw [houtlook]) ?_ ?_ (by rw [houtbound]) (by simp only [closed?, hp, hnext, hinbound])
  · rw [houtlook, hanswer]
    exact hafter
  · have hmore : (Session.Phase.boundary state).resends.toNat ≤ (decide (a = .nack)).toNat := by
      cases hresends : (Session.Phase.boundary state).resends with
      | false => exact Nat.zero_le _
      | true =>
          rw [hagain hresends]
          decide
    rw [hanswer, Session.resent, Session.resent, hcount, hnext, hp]
    exact Nat.add_le_add_left hmore _

/-- The only thing that can break down in an undisturbed run is the count of
frames that were sent again. -/
theorem overflow_of_breaks (hcut : image.WellCut) (hfit : j.Fit board image limit)
    (hcalm : j.post.calm (.step now) = true) {fault : Session.Fault} {m' : Mailbox}
    (h : Session.Breaks now j.post.session j.post.mailbox fault m') :
    fault = .counterOverflow ∧ ∃ x outbound, j.post.session.phase = .placing x ∧ x.again = true
      ∧ j.post.session.retransmissions.toNat = 4294967295
      ∧ j.post.mailbox.outbound.trySend x.frame = .ok outbound
      ∧ m' = { j.post.mailbox with outbound } := by
  rcases hfit.steady.fault_of_breaks hcut h with ⟨-, -, hnever, state, phase, -⟩ | hplaced
  · simp only [Post.calm, phase, hnever, Option.isSome_none] at hcalm
    cases hcalm
  · exact hplaced

theorem step_moves (hcut : image.WellCut) (hfit : j.Fit board image limit)
    (hlive : j.post.session.isOver = false) (hcalm : j.post.calm (.step now) = true) :
    Moves j (j.apply (.step now)) := by
  show Moves j (j.stepped now (.ofReaction (j.post.session.step now j.post.mailbox)))
  have hsize := hfit.chunkSize_pos hcut
  have hfits := hfit.sound.phase
  have hwithin := hfit.refusals
  rw [← hfit.most] at hwithin
  cases Session.step_course now j.post.session j.post.mailbox with
  | idle hover _ =>
      rw [hlive] at hover
      cases hover
  | start phase result | request _ _ phase _ _ result | prepare _ _ phase _ _ result
  | send _ _ _ phase _ _ result | discard _ _ _ phase _ result | clear _ phase _ result
  | trySend _ phase _ _ result | tryReceive _ phase _ _ result | hold _ phase _ result
  | ignore _ _ _ phase _ _ result | await _ phase _ _ result | finish _ _ phase result =>
      rw [result]
      refine .of_quiet (fun _ => nofun) ?_ ?_ rfl (by simp only [closed?, phase, Post.ofReaction])
      · simp only [Post.ofReaction, Session.outlook, phase]
        rfl
      · simp only [Post.ofReaction, Session.resent, Session.Phase.resends, phase]
        exact Nat.le_refl _
  | enter state phase _ result =>
      rw [result]
      refine .of_quiet (fun _ => nofun) ?_ ?_ rfl (by simp only [closed?, phase, Post.ofReaction])
      · simp only [Post.ofReaction, Session.outlook, phase]
        rfl
      · simp only [Post.ofReaction, Session.resent, phase]
        cases state <;> exact Nat.le_refl _
  | complete phase atEnd result =>
      rw [result]
      refine .of_quiet (fun _ => nofun) ?_ ?_ rfl (by simp only [closed?, phase, Post.ofReaction])
      · simp only [Post.ofReaction, Session.outlook, phase, Session.outlookIn,
          Cursor.rest_of_none hsize atEnd, Reference.offer]
      · simp only [Post.ofReaction, Session.resent, Session.Phase.resends, phase]
        exact Nat.le_refl _
  | exhaust packet refusals phase spent result =>
      rw [result]
      refine .of_quiet (fun _ => nofun) ?_ ?_ rfl (by simp only [closed?, phase, Post.ofReaction])
      · rw [phase] at hfits hwithin
        obtain rfl : refusals = j.post.session.maxTransmissions := UInt32.le_antisymm hwithin spent
        cases packet with
        | none => exact hfits.elim
        | some packet =>
            simp only [Post.ofReaction, Session.outlook, phase, Session.outlookIn, Nat.sub_self,
              Cursor.rest_of_some hsize hfits.payload, Reference.offer]
      · simp only [Post.ofReaction, Session.resent, Session.Phase.resends, phase]
        exact Nat.le_add_right ..
  | stop state phase undone flag result =>
      rw [hfit.free] at flag
      cases flag
  | cancel x phase flag result =>
      rw [hfit.free] at flag
      cases flag
  | giveUp x failure phase why result =>
      rw [phase] at hwithin
      exact hwithin.elim
  | lose x closed result =>
      rcases closed with ⟨-, hclosed⟩ | ⟨-, -, hclosed⟩
      · rw [hfit.collecting] at hclosed
        cases hclosed
      · rw [hfit.delivering] at hclosed
        cases hclosed
  | expire x phase free late result =>
      rcases phase with phase | phase
      · simp only [Post.calm, phase, decide_eq_true_eq] at hcalm
        omega
      · have houtlook := outlook_of_waiting hcut hfit (.inl phase)
        rw [result]
        refine .of_answer (w := ⟨j.arrived, j.post.mailbox.inbound.items, true⟩)
          (fun _ => nofun) (by rw [houtlook]) ?_ ?_ rfl
          (by simp only [closed?, phase, Post.ofReaction, late, decide_true])
        · rw [houtlook, Session.awaited]
          cases x.purpose <;> rfl
        · simp only [Post.ofReaction, Session.resent, Session.Phase.resends, phase]
          exact Nat.le_add_right ..
  | place x outbound retransmissions phase sent count result =>
      have houtlook := outlook_of_placing hcut hfit phase
      obtain ⟨-, -, rfl⟩ := Queue.trySend_eq_ok_iff.mp sent
      rw [result]
      refine .send x.frame (fun _ => nofun) (by rw [houtlook]) ?_ ?_ (sent_stepped_of_append rfl) ?_
      · simp only [stepped, Post.ofReaction, Session.outlook, phase]
        rfl
      · simp only [stepped, Post.ofReaction, Session.resent, Session.Phase.resends, phase]
        split at count
        · next hagain =>
          rw [Word.toNat_of_next? count, hagain]
          exact Nat.le_refl _
        · next hagain =>
          rw [count]
          exact Nat.le_add_right ..
      · exact windows_stepped_of_open (by simp only [closed?, phase, Post.ofReaction])
  | grant x frame inbound phase taken type purpose result =>
      rw [result]
      refine .of_taken hcut hfit phase taken (by rw [Frame.answer?, type]) rfl rfl rfl rfl nofun ?_
      rw [Session.awaited, purpose]
      rfl
  | accept x refusals frame inbound chunksSent phase taken type purpose count result =>
      rw [phase] at hfits
      have hrest := Cursor.rest_of_some hsize (hfits.chunk purpose).payload
      rw [result]
      refine .of_taken hcut hfit phase taken (by rw [Frame.answer?, type]) rfl rfl rfl rfl nofun ?_
      rw [Session.awaited, purpose, hrest]
      rfl
  | reject x frame inbound phase taken type purpose result =>
      rw [result]
      refine .of_taken hcut hfit phase taken (by rw [Frame.answer?, type]) rfl rfl rfl rfl nofun ?_
      rw [Session.awaited, purpose]
      rfl
  | refuse x refusals refusals' frame inbound phase taken type purpose count result =>
      rw [result]
      refine .of_taken hcut hfit phase taken (by rw [Frame.answer?, type]) rfl rfl rfl rfl
        (fun _ => rfl) ?_
      rw [Session.awaited, purpose]
      simp only [Post.ofReaction, Session.outlook, Session.outlookIn, Word.toNat_of_next? count]
      rfl
  | fail x frame inbound phase taken type result =>
      rw [result]
      refine .of_taken hcut hfit phase taken (by rw [Frame.answer?, type]) rfl rfl rfl rfl nofun ?_
      rw [Session.awaited]
      cases x.purpose <;> rfl
  | crash fault m' why result =>
      obtain ⟨rfl, x, outbound, phase, hagain, hmost, hsent, rfl⟩ :=
        overflow_of_breaks hcut hfit hcalm why
      obtain ⟨-, -, rfl⟩ := Queue.trySend_eq_ok_iff.mp hsent
      rw [result]
      refine .overflow x.frame rfl (by rw [outlook_of_placing hcut hfit phase]) ?_
        (sent_stepped_of_append rfl)
        (windows_stepped_of_open (by simp only [closed?, phase, Post.ofReaction]))
      simp only [Session.resent, Session.Phase.resends, phase, hagain, hmost]
      exact Nat.le_refl _

/-! ## Runs -/

theorem apply_step_of_over (hover : j.post.session.isOver = true) (now : Instant) :
    j.apply (.step now) = j := by
  obtain ⟨hsession, hmailbox⟩ := Session.step_of_isOver now j.post.mailbox hover
  have hpost : j.post.apply (.step now) = j.post := Post.ext hsession hmailbox
  show j.stepped now (j.post.apply (.step now)) = j
  rw [hpost, stepped, closed?, List.drop_length, List.append_nil]
  unfold Session.isOver at hover
  split at hover
  · next hp => simp only [hp, Option.toList_none, List.append_nil]
  · next hp => simp only [hp, Option.toList_none, List.append_nil]
  · cases hover

/-- The session has done what the protocol says for the answers that it had. -/
inductive Traced (board : UInt8) (image : Firmware) (limit : UInt32) (j : Journal) : Prop
  | going (whole : ∀ fault, j.post.session.phase ≠ .crashed fault)
      (sent : (Reference.after board limit image j.answers).sent
        = j.sent.map Frame.message ++ j.post.session.outlook.sent)
      (state : (Reference.after board limit image j.answers).state = j.post.session.outlook.state)
      (resent : j.post.session.resent ≤ j.answers.count .nack)
  | overflown (crashed : j.post.session.phase = .crashed .counterOverflow)
      (sent : (Reference.after board limit image j.answers).sent = j.sent.map Frame.message)
      (refused : 4294967296 ≤ j.answers.count .nack)

theorem answers_eq {j j' : Journal} (h : j'.windows = j.windows) : j'.answers = j.answers := by
  rw [answers, h, answers]

theorem answers_eq_concat {j j' : Journal} {w : Window} (h : j'.windows = j.windows ++ [w]) :
    j'.answers = j.answers ++ [w.answer] := by
  rw [answers, h, List.map_append, answers]
  rfl

theorem Moves.traced {j' : Journal} (h : Moves j j') (hfit : j.Fit board image limit)
    (hlive : j.post.session.isOver = false) (htraced : j.Traced board image limit) :
    j'.Traced board image limit := by
  cases htraced with
  | overflown crashed =>
      rw [Session.isOver, crashed] at hlive
      cases hlive
  | going _ hsent hstate hcount =>
      cases h with
      | quiet whole outlook resent sent windows =>
          refine .going whole ?_ ?_ ?_
          · rw [answers_eq windows, sent, outlook]
            exact hsent
          · rw [answers_eq windows, outlook]
            exact hstate
          · rw [answers_eq windows]
            exact Nat.le_trans resent hcount
      | send f whole before after resent sent windows =>
          refine .going whole ?_ ?_ ?_
          · rw [answers_eq windows, sent, after, hsent, before, List.map_append, List.append_nil]
            rfl
          · rw [answers_eq windows, after]
            exact hstate
          · rw [answers_eq windows]
            exact Nat.le_trans resent hcount
      | answer w whole before after resent sent windows =>
          rw [hfit.sound.board, hfit.most, ← hstate] at after
          refine .going whole ?_ ?_ ?_
          · rw [answers_eq_concat windows, Reference.after_concat, Reference.hear, hsent, before,
              List.append_nil, sent, after]
          · rw [answers_eq_concat windows, Reference.after_concat, Reference.hear, after]
          · rw [answers_eq_concat windows, List.count_append, List.count_singleton]
            refine Nat.le_trans resent (Nat.add_le_add hcount ?_)
            cases w.answer <;> decide
      | overflow f crashed before most sent windows =>
          refine .overflown crashed ?_ ?_
          · rw [answers_eq windows, sent, hsent, before, List.map_append]
            rfl
          · rw [answers_eq windows]
            exact Nat.le_trans most hcount

/-- A session that gives up has taken no answer. -/
theorem punctual_of_closed (hfit : j.Fit board image limit) {w : Window}
    (hclosed : j.closed? now next = some w) (hlate : w.late = true) :
    ∃ read, w.arrived = read ++ w.unread ∧ ∀ f ∈ read, f.answer? = none := by
  have hwaits := hfit.waits
  unfold closed? at hclosed
  split at hclosed
  · next x _ hp _ =>
    obtain rfl := Option.some.inj hclosed
    rw [hp] at hwaits
    exact hwaits
  · next x _ hp _ =>
    obtain rfl := Option.some.inj hclosed
    rw [hp] at hwaits
    exact hwaits
  · obtain rfl := Option.some.inj hclosed
    cases hlate
  · cases hclosed

/-- What the journal of an undisturbed run tells. -/
structure Follows (board : UInt8) (image : Firmware) (limit : UInt32) (j : Journal) : Prop where
  fit : j.Fit board image limit
  traced : j.Traced board image limit
  punctual : ∀ w ∈ j.windows, w.late = true →
    ∃ read, w.arrived = read ++ w.unread ∧ ∀ f ∈ read, f.answer? = none

theorem Follows.step (hcut : image.WellCut) (h : j.Follows board image limit)
    (hcalm : j.post.calm (.step now) = true) :
    (j.apply (.step now)).Follows board image limit := by
  cases hlive : j.post.session.isOver with
  | true =>
      rw [apply_step_of_over hlive]
      exact h
  | false =>
      refine ⟨h.fit.apply hcut hcalm,
        (step_moves hcut h.fit hlive hcalm).traced h.fit hlive h.traced, fun w hw => ?_⟩
      rcases List.mem_append.mp hw with hw | hw
      · exact h.punctual w hw
      · exact punctual_of_closed h.fit (Option.mem_toList.mp hw)

theorem Follows.apply (hcut : image.WellCut) (h : j.Follows board image limit) {e : Post.Event}
    (hcalm : j.post.calm e = true) : (j.apply e).Follows board image limit := by
  cases e with
  | step now => exact h.step hcut hcalm
  | kill => cases hcalm
  | move move =>
      refine ⟨h.fit.apply hcut hcalm, ?_, h.punctual⟩
      cases h.traced with
      | going whole sent state resent => exact .going whole sent state resent
      | overflown crashed sent refused => exact .overflown crashed sent refused

theorem Follows.run (hcut : image.WellCut) (h : j.Follows board image limit)
    (events : List Post.Event) (hcalm : j.post.undisturbed events = true) :
    (j.run events).Follows board image limit := by
  induction events generalizing j with
  | nil => exact h
  | cons e events ih =>
      obtain ⟨hfirst, hrest⟩ := Bool.and_eq_true_iff.mp hcalm
      have hpost : (j.apply e).post = j.post.apply e := by cases e <;> rfl
      exact ih (h.apply hcut hfirst) (hpost ▸ hrest)

/-- The journal of a session that has not begun. -/
def start (board : UInt8) (image : Firmware) (settings : Settings) (mailbox : Mailbox) :
    Journal where
  post := ⟨Session.new board image settings, mailbox⟩

theorem start_follows (hcut : image.WellCut) (settings : Settings) {mailbox : Mailbox}
    (hfree : mailbox.cancelled = false) (hdelivering : mailbox.inbound.senderOpen = true)
    (hcollecting : mailbox.outbound.receiverOpen = true) :
    (start board image settings mailbox).Follows board image settings.maxTransmissions where
  fit := {
    sound := Session.new_sound board image settings
    most := rfl
    counted := (Nat.zero_add _).trans hcut.count.symm
    free := hfree
    delivering := hdelivering
    collecting := hcollecting
    refusals := trivial
    waits := trivial }
  traced := by
    have hrest : (Session.new board image settings).cursor.rest = image.chunks := hcut.rest_eq
    refine .going (fun _ => nofun) rfl ?_ (Nat.zero_le _)
    show Reference.State.asking image.chunks = .asking _
    rw [← hrest]
    rfl
  punctual := fun _ hw => nomatch hw

end

/-! ## Answers that are in time -/

/-- The session waits for an answer that is in its queue already. Among the events
to come are all the steps that it takes to find it, and none past its deadline. -/
structure InTime (j : Journal) (events : List Post.Event) (x : Session.Exchange) (a : Answer) :
    Prop where
  awaits : j.post.session.phase.awaits? = some x
  queued : j.post.mailbox.inbound.items.findSome? Frame.answer? = some a
  early : ∀ now, .step now ∈ events → now.nanos < x.deadline.nanos
  enough : j.post.session.stepsToAnswer j.post.mailbox < Post.steps events

section

variable {board : UInt8} {image : Firmware} {limit : UInt32} {j : Journal} {now : Instant}
  {x : Session.Exchange} {a : Answer} {events : List Post.Event}

/-- A window that closes before the deadline has the first answer that came in. -/
theorem answer_of_closed {next : Post} (hx : j.post.session.phase.awaits? = some x)
    (hearly : now.nanos < x.deadline.nanos) (ha : j.arrived.findSome? Frame.answer? = some a)
    {w : Window} (hclosed : j.closed? now next = some w) : w.answer = a := by
  unfold closed? at hclosed
  split at hclosed
  · next hp _ =>
    rw [hp] at hx
    cases hx
  · next hp _ =>
    rw [hp] at hx
    obtain rfl := Option.some.inj hx
    obtain rfl := Option.some.inj hclosed
    simp [Window.answer, Int.not_le.mpr hearly, ha]
  · obtain rfl := Option.some.inj hclosed
    simp [Window.answer, ha]
  · cases hclosed

/-- In an undisturbed run the wait for an answer ends with a window. -/
theorem exists_closed (hcut : image.WellCut) (hfit : j.Fit board image limit)
    (hcalm : j.post.calm (.step now) = true) (hx : j.post.session.phase.awaits? = some x)
    (hleft : (j.post.apply (.step now)).session.phase.awaits? ≠ some x) :
    ∃ w, j.closed? now (j.post.apply (.step now)) = some w := by
  have hp := Session.Phase.awaits?_eq_some_iff.mp hx
  rcases (Session.step_course now _ _).awaits_exit hx hleft with
    ⟨state, hnext⟩ | ⟨y, hnext⟩ | ⟨fault, hnext⟩
  · rcases hp with hp | hp
    · rw [closed?, hp, Post.apply, Post.ofReaction, hnext]
      exact ⟨_, rfl⟩
    · rw [closed?, hp, Post.apply, Post.ofReaction, hnext]
      exact ⟨_, rfl⟩
  · have hwithin := (hfit.apply hcut hcalm).refusals
    change Session.Phase.Within _ (Session.step now _ _).session.phase at hwithin
    rw [hnext] at hwithin
    exact hwithin.elim
  · have hlive : j.post.session.isOver = false := by
      rcases hp with hp | hp
      · rw [Session.isOver, hp]
      · rw [Session.isOver, hp]
    cases step_moves hcut hfit hlive hcalm with
    | quiet whole | send _ whole | answer _ whole => exact absurd hnext (whole fault)
    | overflow f _ before =>
        rw [outlook_of_waiting hcut hfit hp] at before
        cases before

/-- As long as the session waits, the window is open. -/
theorem closed?_eq_none {next : Post} (hin : next.session.phase.awaits? = some x) :
    j.closed? now next = none := by
  unfold closed?
  split
  · next hnext =>
    rw [hnext] at hin
    cases hin
  · next hnext =>
    rw [hnext] at hin
    cases hin
  · next hnext =>
    rw [hnext] at hin
    cases hin
  · rfl

theorem InTime.decided (h : j.InTime events x a) : j.post.mailbox.Decided := by
  obtain ⟨f, hf, hanswer⟩ := List.exists_of_findSome?_eq_some h.queued
  refine .inl ⟨f, hf, Bool.of_not_eq_false fun hother => ?_⟩
  rw [Frame.answer?_eq_none_iff.mpr hother] at hanswer
  cases hanswer

/-- With a step the session finds the answer or gets nearer to it. -/
theorem InTime.step (hcut : image.WellCut) (hfit : j.Fit board image limit)
    (h : j.InTime (.step now :: events) x a) (hcalm : j.post.calm (.step now) = true) :
    (j.apply (.step now)).answers = j.answers ++ [a]
    ∨ (j.apply (.step now)).answers = j.answers ∧ (j.apply (.step now)).InTime events x a := by
  have hfirst := (hfit.first_answer h.awaits).trans h.queued
  by_cases hin : (j.post.apply (.step now)).session.phase.awaits? = some x
  · have harrived : (j.apply (.step now)).arrived = j.arrived := by
      rcases Session.Phase.awaits?_eq_some_iff.mp h.awaits with hp | hp
      · rw [apply, stepped, hp]
      · rw [apply, stepped, hp]
    have hcourse := Session.step_course now j.post.session j.post.mailbox
    rcases hcourse.awaits h.awaits h.decided with hleft | ⟨-, -, hless⟩
    · exact absurd hin hleft
    · have henough := h.enough
      rw [Post.steps_cons_step] at henough
      refine .inr ⟨answers_eq (windows_stepped_of_open (closed?_eq_none hin)), hin, ?_,
        fun now' hnow' => h.early now' (List.mem_cons_of_mem _ hnow'),
        Nat.lt_of_lt_of_le hless (Nat.le_of_lt_succ henough)⟩
      rw [← (hfit.apply hcut hcalm).first_answer hin, harrived]
      exact hfirst
  · obtain ⟨w, hclosed⟩ := exists_closed hcut hfit hcalm h.awaits hin
    have hearly := h.early now List.mem_cons_self
    obtain rfl := answer_of_closed h.awaits hearly hfirst hclosed
    exact .inl (answers_eq_concat (windows_stepped hclosed))

/-- What others do makes no difference. -/
theorem InTime.move {change : Mailbox.Move} (h : j.InTime (.move change :: events) x a)
    (hcalm : j.post.calm (.move change) = true) :
    (j.apply (.move change)).InTime events x a := by
  have henough := h.enough
  rw [Post.steps_cons_move, Session.stepsToAnswer, ← h.decided.ahead_apply change] at henough
  refine ⟨h.awaits, ?_, fun now hnow => h.early now (List.mem_cons_of_mem _ hnow), henough⟩
  cases change with
  | deliver f =>
      show (j.post.mailbox.apply (.deliver f)).inbound.items.findSome? _ = some a
      rcases j.post.mailbox.apply_deliver f with hlost | hlast
      · rw [hlost]
        exact h.queued
      · rw [hlast, List.findSome?_append, h.queued, Option.some_or]
  | collect n =>
      show (j.post.mailbox.apply (.collect n)).inbound.items.findSome? _ = some a
      rw [(j.post.mailbox.apply_collect n).1]
      exact h.queued
  | _ => cases hcalm

/-- What has been answered stays as it is. -/
theorem answers_prefix (j : Journal) (events : List Post.Event) :
    j.answers <+: (j.run events).answers := by
  induction events generalizing j with
  | nil => exact List.prefix_refl _
  | cons e events ih =>
      refine List.IsPrefix.trans ?_ (ih (j.apply e))
      cases e with
      | step now => exact (List.prefix_append _ _).map Window.answer
      | kill | move change => exact List.prefix_refl _

/-- An answer that is in time is the next one that counts. -/
theorem InTime.run (hcut : image.WellCut) (hfit : j.Fit board image limit)
    (h : j.InTime events x a) (hcalm : j.post.undisturbed events = true) :
    j.answers ++ [a] <+: (j.run events).answers := by
  induction events generalizing j with
  | nil => exact absurd h.enough (Nat.not_lt_zero _)
  | cons e events ih =>
      obtain ⟨hnow, hlater⟩ := Bool.and_eq_true_iff.mp hcalm
      have hfit' := hfit.apply hcut hnow
      cases e with
      | step now =>
          rcases h.step hcut hfit hnow with hfound | ⟨hsame, hgoes⟩
          · rw [← hfound]
            exact answers_prefix (j.apply (.step now)) events
          · rw [← hsame]
            exact ih hfit' hgoes hlater
      | kill => cases hnow
      | move change => exact ih hfit' (h.move hnow) hlater

end

/-! ## Refinement -/

/-- In an undisturbed run a session has queued the frames that the protocol has
sent, except for the last one if that is still to come, and when it is over it
has queued them all and ends as the protocol does. It comes to its end in so
many steps. An answer counts if the session gets to it before it finds its
deadline over; what it has passed over by then is no answer. So none is missed
that is in the queue while there is still time for the steps to it. -/
theorem refines_reference {origin : String} {bytes : Array UInt8} {chunkSize : UInt64}
    {key : List UInt8} {image : Firmware}
    (hbuilt : Firmware.build origin bytes chunkSize key = .ok image) (board : UInt8)
    (settings : Settings) (mailbox : Mailbox) (hfree : mailbox.cancelled = false)
    (hdelivering : mailbox.inbound.senderOpen = true)
    (hcollecting : mailbox.outbound.receiverOpen = true) (events : List Post.Event)
    (hcalm : (start board image settings mailbox).post.undisturbed events = true) :
    let first := start board image settings mailbox
    let j := first.run events
    let protocol := Reference.after board settings.maxTransmissions image j.answers
    (∃ unsent, protocol.sent = j.sent.map Frame.message ++ unsent ∧ unsent.length ≤ 1
      ∧ ∀ failure, protocol.state = .over failure → unsent = [])
    ∧ (∀ outcome, j.post.session.outcome? = some outcome →
      protocol.sent = j.sent.map Frame.message
      ∧ (protocol.state = .over outcome.failure
        ∨ outcome = .aborted board ∧ 4294967296 ≤ j.answers.count .nack))
    ∧ (∀ w ∈ j.windows, w.late = true →
      ∃ read, w.arrived = read ++ w.unread ∧ ∀ f ∈ read, f.answer? = none)
    ∧ (j.post.session.isOver = true
      ∨ Post.steps events
        ≤ first.post.effort + 2 * first.post.looks events + Post.deliveries events)
    ∧ (∀ before between after x a, events = before ++ between ++ after →
      (first.run before).InTime between x a →
      (first.run before).answers ++ [a] <+: j.answers) := by
  intro first j protocol
  have hcut := Firmware.wellCut_of_build hbuilt
  have hfirst : first.Follows board image settings.maxTransmissions :=
    start_follows hcut settings hfree hdelivering hcollecting
  have hfollows : j.Follows board image settings.maxTransmissions := hfirst.run hcut events hcalm
  refine ⟨?_, fun outcome houtcome => ?_, hfollows.punctual, ?_, ?_⟩
  · cases hfollows.traced with
    | going _ hsent hstate _ =>
        refine ⟨_, hsent, j.post.session.length_sent_outlook_le, fun failure hover => ?_⟩
        exact Session.sent_outlook_of_over (hstate.symm.trans hover)
    | overflown _ hsent _ =>
        exact ⟨[], hsent.trans (List.append_nil _).symm, Nat.zero_le 1, fun _ _ => rfl⟩
  · cases hfollows.traced with
    | going hwhole hsent hstate _ =>
        unfold Session.outcome? at houtcome
        split at houtcome
        · next failure elapsed hp =>
          obtain rfl := Option.some.inj houtcome
          have hend : j.post.session.outlook = ⟨[], .over failure⟩ := by rw [Session.outlook, hp]
          rw [hend] at hsent hstate
          exact ⟨hsent.trans (List.append_nil _), .inl hstate⟩
        · next fault hp => exact absurd hp (hwhole fault)
        · cases houtcome
    | overflown hcrashed hsent hrefused =>
        rw [Session.outcome?, hcrashed, hfollows.fit.sound.board] at houtcome
        exact ⟨hsent, .inr ⟨(Option.some.inj houtcome).symm, hrefused⟩⟩
  · have hpost : j.post = first.post.run events := post_run first events
    rw [hpost]
    exact (Post.run_effort (p := first.post) hcut.size_pos events).imp id
      (Nat.le_trans (Nat.le_add_right ..))
  · rintro before between after x a rfl htime
    rw [Post.undisturbed_append, Post.undisturbed_append, Bool.and_eq_true, Bool.and_eq_true,
      ← post_run] at hcalm
    obtain ⟨⟨hbefore, hbetween⟩, -⟩ := hcalm
    refine (htime.run hcut (hfirst.run hcut before hbefore).fit hbetween).trans ?_
    show _ <+: (first.run (before ++ between ++ after)).answers
    rw [run_append, run_append]
    exact answers_prefix _ after

/-- An image of two chunks. -/
def twoChunks : Firmware := ⟨#[1, 2, 3], Hmac.mac [1, 2, 3] [], 2, 2⟩

/-- The board refuses the first chunk once and the second one twice. An answer
from before the update is in the inbound queue. -/
def refusedTwice : List Post.Event :=
  let steps (n : Nat) : List Post.Event := List.replicate n (.step .origin)
  let comes (type : FrameType) : Post.Event := .move (.deliver (.empty type 7 hostId))
  steps 7 ++ comes .ack :: steps 9 ++ comes .nack :: steps 7 ++ comes .ack :: steps 9
    ++ comes .nack :: steps 7 ++ comes .nack :: steps 6

theorem exhausted_after_two :
    let mailbox : Mailbox := {
      inbound := { capacity := 4, items := [.empty .nack 7 hostId] }
      outbound := { capacity := 8 } }
    let j := (start 7 twoChunks { maxTransmissions := 2 } mailbox).run refusedTwice
    let protocol := Reference.after 7 2 twoChunks [.ack, .nack, .ack, .nack, .nack]
    j.answers = [.ack, .nack, .ack, .nack, .nack]
    ∧ protocol.sent = j.sent.map Frame.message
    ∧ protocol.state = .over (some (.retriesExhausted 2))
    ∧ ∃ outcome, j.post.session.outcome? = some outcome
      ∧ outcome.failure = some (.retriesExhausted 2) := by
  intro mailbox j protocol
  have hanswers : j.answers = [.ack, .nack, .ack, .nack, .nack] := by decide +kernel
  have hmap : j.post.session.outcome?.map Outcome.failure = some (some (.retriesExhausted 2)) := by
    decide +kernel
  have hends : ∀ outcome, j.post.session.outcome? = some outcome →
      (Reference.after 7 2 twoChunks j.answers).sent = j.sent.map Frame.message
      ∧ ((Reference.after 7 2 twoChunks j.answers).state = .over outcome.failure
        ∨ outcome = .aborted 7 ∧ 4294967296 ≤ j.answers.count .nack) :=
    (@refines_reference "firmware" #[1, 2, 3] 2 [] twoChunks rfl 7 { maxTransmissions := 2 } mailbox
      rfl rfl rfl refusedTwice (by decide +kernel)).2.1
  clear_value j
  obtain ⟨outcome, houtcome, hfailure⟩ := Option.map_eq_some_iff.mp hmap
  obtain ⟨hsent, hstate⟩ := hends outcome houtcome
  rw [hanswers] at hsent hstate
  rw [hfailure] at hstate
  refine ⟨hanswers, hsent, hstate.resolve_right ?_, outcome, houtcome, hfailure⟩
  rintro ⟨-, hmany⟩
  exact absurd hmany (by decide)

/-- Two steps after the board has granted the update its answer is found. -/
example :
    let mailbox : Mailbox := {
      inbound := { capacity := 4, items := [.empty .nack 7 hostId] }
      outbound := { capacity := 8 } }
    let j := (start 7 twoChunks { maxTransmissions := 2 } mailbox).run (refusedTwice.take 8)
    ∃ x, j.InTime [.step .origin, .step .origin] x .ack := by
  intro mailbox j
  obtain ⟨x, hx⟩ : ∃ x, j.post.session.phase.awaits? = some x :=
    Option.isSome_iff_exists.mp (by decide +kernel)
  have hlate : ∀ x ∈ j.post.session.phase.awaits?, Instant.origin.nanos < x.deadline.nanos := by
    decide +kernel
  refine ⟨x, hx, by decide +kernel, fun now hnow => ?_, by decide +kernel⟩
  obtain rfl : now = .origin := by simpa using hnow
  exact hlate x hx

end Journal

end BoardFlash
