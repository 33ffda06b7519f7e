import BoardFlash.Bridge.Machine

/-!
# The steps of the bridge

`Bridge.Passage` lists what one step of the bridge can do, and
`step_passage` says that it does nothing else. On its way from the link
to the trunk a frame is first read, in pieces (`start`, `read`,
`header`), and then stored (`whole`, `store`); on its way from the trunk
to the link it is fetched and then written, in pieces (`fetch`,
`write`). In between the bridge is empty-handed (`Phase.free`).

A call on the link that was interrupted is made again (`again`). One that
fails for good (`fault?`) ends the bridge: it raises the alarm and lets
go of its queues.
-/

namespace BoardFlash

namespace Bridge

/-- The bridge is at work and holds no bytes. -/
def Phase.free : Phase → Bool
  | .starting | .resting | .checking | .polling | .fetching | .flushing => true
  | _ => false

/-- Where the bridge stands when these bytes are left to be written. -/
def Phase.toWrite (rest : List UInt8) : Phase :=
  if rest.isEmpty then .flushing else .writing rest

/-- The failure that ends the bridge when the link gives this reply. -/
def fault? : (c : Link.Call) → c.Reply → Option IoError
  | .available, .ok _ => none
  | .available, .error e => some e
  | .read _, .ok bytes => if bytes.val = [] then some .endOfInput else none
  | .read _, .error e => if e.kind = .interrupted ∨ isQuiet e = true then none else some e
  | .write _, .ok n => if n.val = 0 then some .nothingTaken else none
  | .write _, .error e => if e.kind = .interrupted then none else some e
  | .flush, .ok _ => none
  | .flush, .error e => some e

/-- What one step of the bridge can do. -/
inductive Passage (b : Bridge) (t : Trunk) (link : Link) (b' : Bridge) (t' : Trunk) : Prop where
  /-- Nothing is moved. The link is asked for bytes only when there is room
  for a frame. -/
  | quiet (before : b.phase.free = true) (after : b'.phase.free = true) (trunk : t' = t)
      (room : b'.phase = .polling → t.queues.back.isFull = false)
  | start (n : Nat) (before : b.phase = .polling) (reply : link .available = .ok n)
      (enough : Frame.headerLength ≤ n) (after : b'.phase = .reading [] Frame.headerLength)
      (trunk : t' = t)
  | read (got : List UInt8) (missing : Nat) (bytes : (Link.Call.read missing).Result)
      (before : b.phase = .reading got missing) (reply : link (.read missing) = .ok bytes)
      (few : bytes.val.length < missing)
      (after : b'.phase = .reading (got ++ bytes.val) (missing - bytes.val.length))
      (trunk : t' = t)
  | header (got : List UInt8) (missing n : Nat) (bytes : (Link.Call.read missing).Result)
      (before : b.phase = .reading got missing) (reply : link (.read missing) = .ok bytes)
      (all : bytes.val.length = missing)
      (complete : (got ++ bytes.val).length = Frame.headerLength)
      (announced : Frame.remaining? (got ++ bytes.val) = some n)
      (after : b'.phase = .reading (got ++ bytes.val) n) (trunk : t' = t)
  | garble (got : List UInt8) (missing : Nat) (bytes : (Link.Call.read missing).Result)
      (before : b.phase = .reading got missing) (reply : link (.read missing) = .ok bytes)
      (all : bytes.val.length = missing)
      (complete : (got ++ bytes.val).length = Frame.headerLength)
      (announced : Frame.remaining? (got ++ bytes.val) = none) (after : b'.phase = .fetching)
      (trunk : t' = t)
  | whole (got : List UInt8) (missing : Nat) (bytes : (Link.Call.read missing).Result)
      (before : b.phase = .reading got missing) (reply : link (.read missing) = .ok bytes)
      (all : bytes.val.length = missing)
      (complete : (got ++ bytes.val).length ≠ Frame.headerLength)
      (after : b'.phase = .storing (got ++ bytes.val)) (trunk : t' = t)
  | cut (got : List UInt8) (missing : Nat) (e : IoError) (before : b.phase = .reading got missing)
      (reply : link (.read missing) = .error e) (why : isQuiet e = true)
      (after : b'.phase = .fetching) (trunk : t' = t)
  | store (raw : List UInt8) (back : Queue (List UInt8)) (before : b.phase = .storing raw)
      (sent : t.queues.back.trySend raw = .ok back) (after : b'.phase = .fetching)
      (trunk : t' = { t with queues := { t.queues with back } })
  | overflow (raw : List UInt8) (why : SendRefusal) (before : b.phase = .storing raw)
      (refused : t.queues.back.trySend raw = .error why) (after : b'.phase = .fetching)
      (trunk : t' = t)
  | fetch (raw : List UInt8) (forth : Queue (List UInt8)) (before : b.phase = .fetching)
      (taken : t.queues.forth.tryRecv = .ok (raw, forth)) (after : b'.phase = .toWrite raw)
      (trunk : t' = { t with queues := { t.queues with forth } })
  | write (rest : List UInt8) (n : (Link.Call.write rest).Result)
      (before : b.phase = .writing rest) (reply : link (.write rest) = .ok n)
      (progress : n.val ≠ 0) (after : b'.phase = .toWrite (rest.drop n.val)) (trunk : t' = t)
  | again (c : Link.Call) (e : IoError) (call : b.call? = some c) (reply : link c = .error e)
      (why : e.kind = .interrupted) (after : b'.phase = b.phase) (trunk : t' = t)
  | fail (c : Link.Call) (e : IoError) (call : b.call? = some c)
      (why : fault? c (link c) = some e) (after : b'.phase = .failing e) (trunk : t' = t)
  | alarm (e : IoError) (before : b.phase = .failing e) (after : b'.phase = .alarming e)
      (trunk : t' = t)
  | raise (e : IoError) (before : b.phase = .alarming e)
      (after : b'.phase = .stopping (some e)) (trunk : t' = { t with alarm := true })
  | stop (before : b.phase = .resting ∧ t.cancelled = true
        ∨ b.phase = .fetching ∧ t.queues.forth.tryRecv = .error .disconnected)
      (after : b'.phase = .stopping none) (trunk : t' = t)
  | release (failure : Option IoError) (before : b.phase = .stopping failure)
      (after : b'.phase = .stopped failure) (trunk : t' = t.release)
  | stopped (failure : Option IoError) (before : b.phase = .stopped failure)
      (after : b'.phase = .stopped failure) (trunk : t' = t)

section

variable (b : Bridge) (t : Trunk) (link : Link)

theorem polled_passage {reply : Except IoError Nat} (hp : b.phase = .polling)
    (hreply : link .available = reply) :
    Passage b t link (polled t reply).bridge (polled t reply).trunk := by
  have hfree : b.phase.free = true := by rw [hp]; rfl
  have hcall : b.call? = some .available := by rw [call?, hp]
  cases reply with
  | ok n =>
      by_cases hn : Frame.headerLength ≤ n
      · exact .start n hp hreply hn (if_pos hn) rfl
      · have hphase : (polled t (.ok n)).bridge.phase = .fetching := if_neg hn
        refine .quiet hfree (by rw [hphase]; rfl) rfl (fun hpoll => ?_)
        rw [hphase] at hpoll
        cases hpoll
  | error e => exact .fail .available e hcall (by rw [hreply]; rfl) rfl rfl

theorem afterRead_ok (got : List UInt8) (missing : Nat) {bytes : List UInt8} (hsome : bytes ≠ []) :
    afterRead t got missing (.ok bytes)
      = if missing ≤ bytes.length then complete t (got ++ bytes)
        else goTo t (.reading (got ++ bytes) (missing - bytes.length)) := by
  cases bytes with
  | nil => exact absurd rfl hsome
  | cons b bs => rfl

theorem read_passage {got : List UInt8} {missing : Nat} (hp : b.phase = .reading got missing) :
    let r := afterRead t got missing ((link (.read missing)).map (·.val))
    Passage b t link r.bridge r.trunk := by
  have hcall : b.call? = some (.read missing) := by rw [call?, hp]
  dsimp only
  cases hreply : link (.read missing) with
  | ok bytes =>
      by_cases hnil : bytes.val = []
      · have hfault : fault? (.read missing) (link (.read missing)) = some .endOfInput := by
          rw [hreply]
          exact if_pos hnil
        have hr : afterRead t got missing (.ok bytes.val) = goTo t (.failing .endOfInput) := by
          rw [hnil]
          rfl
        rw [Except.map, hr]
        exact .fail _ _ hcall hfault rfl rfl
      · rw [Except.map, afterRead_ok t got missing hnil]
        split
        · next hle =>
          have hall : bytes.val.length = missing := Nat.le_antisymm bytes.property hle
          unfold complete
          split
          · next hcomplete =>
            split
            · next n hn => exact .header got missing n bytes hp hreply hall hcomplete hn rfl rfl
            · next hn => exact .garble got missing bytes hp hreply hall hcomplete hn rfl rfl
          · next hcomplete => exact .whole got missing bytes hp hreply hall hcomplete rfl rfl
        · next hlt => exact .read got missing bytes hp hreply (Nat.lt_of_not_le hlt) rfl rfl
  | error e =>
      show Passage b t link (afterRead t got missing (.error e)).bridge
        (afterRead t got missing (.error e)).trunk
      unfold afterRead
      dsimp only
      split
      · next hkind => exact .again _ e hcall hreply hkind hp.symm rfl
      · next hkind =>
        split
        · next hquiet => exact .cut got missing e hp hreply hquiet rfl rfl
        · next hquiet =>
          refine .fail _ e hcall ?_ rfl rfl
          rw [hreply]
          exact if_neg (not_or.mpr ⟨hkind, hquiet⟩)

theorem store_passage {raw : List UInt8} (hp : b.phase = .storing raw) :
    Passage b t link (store t raw).bridge (store t raw).trunk := by
  unfold store
  split
  · next back hsent => exact .store raw back hp hsent rfl rfl
  · next hrefused => exact .overflow raw .full hp hrefused rfl rfl
  · next hrefused => exact .overflow raw .disconnected hp hrefused rfl rfl

theorem fetch_passage (hp : b.phase = .fetching) :
    Passage b t link (fetch t).bridge (fetch t).trunk := by
  unfold fetch
  split
  · next raw forth htaken => exact .fetch raw forth hp htaken rfl rfl
  · exact .quiet (by rw [hp]; rfl) rfl rfl (fun hpoll => nomatch hpoll)
  · next hclosed => exact .stop (.inr ⟨hp, hclosed⟩) rfl rfl

theorem afterWrite_ok (rest : List UInt8) {n : Nat} (hsome : n ≠ 0) :
    afterWrite t rest (.ok n) = writeRest t (rest.drop n) := by
  cases n with
  | zero => exact absurd rfl hsome
  | succ n => rfl

theorem write_passage {rest : List UInt8} (hp : b.phase = .writing rest) :
    let r := afterWrite t rest ((link (.write rest)).map (·.val))
    Passage b t link r.bridge r.trunk := by
  have hcall : b.call? = some (.write rest) := by rw [call?, hp]
  dsimp only
  cases hreply : link (.write rest) with
  | ok n =>
      by_cases hn : n.val = 0
      · have hfault : fault? (.write rest) (link (.write rest)) = some .nothingTaken := by
          rw [hreply]
          exact if_pos hn
        have hr : afterWrite t rest (.ok n.val) = goTo t (.failing .nothingTaken) := by
          rw [hn]
          rfl
        rw [Except.map, hr]
        exact .fail _ _ hcall hfault rfl rfl
      · rw [Except.map, afterWrite_ok t rest hn]
        exact .write rest n hp hreply hn rfl rfl
  | error e =>
      show Passage b t link (afterWrite t rest (.error e)).bridge
        (afterWrite t rest (.error e)).trunk
      unfold afterWrite
      by_cases hkind : e.kind = .interrupted
      · refine .again _ e hcall hreply hkind ?_ rfl
        rw [hp]
        exact if_pos hkind
      · refine .fail _ e hcall ?_ (if_neg hkind) rfl
        rw [hreply]
        exact if_neg hkind

theorem step_passage : Passage b t link (b.step t link).bridge (b.step t link).trunk := by
  unfold step
  split
  · next hp => exact .quiet (by rw [hp]; rfl) rfl rfl (fun hpoll => nomatch hpoll)
  · next hp =>
    split
    · next hcancelled => exact .stop (.inl ⟨hp, hcancelled⟩) rfl rfl
    · exact .quiet (by rw [hp]; rfl) rfl rfl (fun hpoll => nomatch hpoll)
  · next hp =>
    split
    · exact .quiet (by rw [hp]; rfl) rfl rfl (fun hpoll => nomatch hpoll)
    · next hroom => exact .quiet (by rw [hp]; rfl) rfl rfl (fun _ => by simpa using hroom)
  · next hp => exact polled_passage b t link hp rfl
  · next got missing hp => exact read_passage b t link hp
  · next raw hp => exact store_passage b t link hp
  · next hp => exact fetch_passage b t link hp
  · next rest hp => exact write_passage b t link hp
  · next hp =>
    have hcall : b.call? = some .flush := by rw [call?, hp]
    split
    · exact .quiet (by rw [hp]; rfl) rfl rfl (fun hpoll => nomatch hpoll)
    · next e hreply => exact .fail .flush e hcall (by rw [hreply]; rfl) rfl rfl
  · next e hp => exact .alarm e hp rfl rfl
  · next e hp => exact .raise e hp rfl rfl
  · next failure hp => exact .release failure hp rfl rfl
  · next failure hp => exact .stopped failure hp rfl rfl

end

end Bridge

end BoardFlash
