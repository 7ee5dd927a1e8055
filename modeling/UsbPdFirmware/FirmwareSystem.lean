import UsbPdFirmware.LabelledRuns
import UsbPdFirmware.PolicyEngine
import UsbPdFirmware.ProtocolRx
import UsbPdFirmware.ProtocolTx
import UsbPdFirmware.HardReset

/-!
# The firmware as one machine

All threads together with their environment. Any enabled action of any
thread may come next, so the runs cover every interleaving, whatever the
priorities of the threads are. The environment is the source, the PHY, the
user and the periodic timer.
-/

namespace UsbPdFirmware.FirmwareSystem

open PdMessage DevicePolicy LabelledRuns EventThreads FirmwareState
open PolicyEngine ProtocolRx ProtocolTx HardReset

/-- Pending flags, the locals of every thread, and what they share. -/
structure System where
  /-- The pending flags of every thread. -/
  pending : Event → Bool
  /-- The Policy Engine. -/
  pe : PolicyEngine
  /-- Protocol RX. -/
  rx : ProtocolRx
  /-- Protocol TX. -/
  tx : ProtocolTx
  /-- The Hard Reset thread. -/
  hr : HardReset
  /-- The polling thread. -/
  intN : IntN
  /-- Shared memory. -/
  shared : Shared

/-- What the environment can do. -/
inductive Environment where
  /-- A source message arrives; the PHY acknowledges it. -/
  | sourceMessage (m : PdMsg)
  /-- A GoodCRC for a transmission arrives. -/
  | goodcrc (m : PdMsg)
  /-- The PHY has retried in vain. -/
  | retryfail
  /-- A hard reset arrives. -/
  | hardrst
  /-- A hard reset has been sent. -/
  | hardsent
  /-- Over-current, or over-temperature when the status bit is set. -/
  | ocpTemp (ovrTemp : Bool)
  /-- The level on the CC line changes. -/
  | bcLvl (level : TypecCurrent)
  /-- The periodic timer of programmable supplies runs out. -/
  | ppsTimer
  /-- The user asks for a new negotiation. -/
  | newPower
  /-- The user asks for the source's capabilities. -/
  | getSourceCap
  /-- The user enables or disables the output. -/
  | output (enabled : Bool)
  /-- The device is capable of USB communications, or not. -/
  | usbComms (capable : Bool)
  /-- The button selects a profile. -/
  | profile (n : ℕ)
  /-- The stored configuration is written or erased. -/
  | storeConfig (config : Option PdbsConfig)
  /-- Unwritten memory changes. -/
  | junk (m : PdMsg) (config : PdbsConfig)

/-- Who acts next. -/
inductive Label where
  | pe
  /-- A timed wait of the Policy Engine expires. -/
  | peTimeout
  | rx
  | tx
  | hr
  /-- The timed wait of the Hard Reset thread expires. -/
  | hrTimeout
  | intN
  | env (e : Environment)

/-- The Policy Engine acts, or a wait of it expires. -/
def Label.isPe : Label → Bool
  | .pe => true
  | .peTimeout => true
  | _ => false

theorem Label.eq_of_isPe {l : Label} (h : l.isPe=true) : l=.pe ∨ l=.peTimeout := by
  cases l <;> simp [Label.isPe] at h ⊢

/-- A wait of the Policy Engine expires. -/
def Label.isPeTimeout : Label → Bool
  | .peTimeout => true
  | _ => false

/-- Protocol TX acts. -/
def Label.isTx : Label → Bool
  | .tx => true
  | _ => false

/-- Protocol RX acts. -/
def Label.isRx : Label → Bool
  | .rx => true
  | _ => false

/-- The Hard Reset thread acts, or its wait expires. -/
def Label.isHr : Label → Bool
  | .hr => true
  | .hrTimeout => true
  | _ => false

namespace System

variable (s : System)

/-- The system after the Policy Engine's action. -/
def withPe (o : Outcome Event PolicyEngine Shared) : System :=
  {s with pending := o.pending,pe := o.loc,shared := o.shared}

/-- The system after Protocol RX's action. -/
def withRx (o : Outcome Event ProtocolRx Shared) : System :=
  {s with pending := o.pending,rx := o.loc,shared := o.shared}

/-- The system after Protocol TX's action. -/
def withTx (o : Outcome Event ProtocolTx Shared) : System :=
  {s with pending := o.pending,tx := o.loc,shared := o.shared}

/-- The system after the Hard Reset thread's action. -/
def withHr (o : Outcome Event HardReset Shared) : System :=
  {s with pending := o.pending,hr := o.loc,shared := o.shared}

/-- The system after the polling thread's action. -/
def withIntN (o : Outcome Event IntN Shared) : System :=
  {s with pending := o.pending,intN := o.loc,shared := o.shared}

/-- The system with one more pending flag. -/
def signalled (e : Event) : System := {s with pending := raise [e] s.pending}

/-- The system with another PHY. -/
def withPhy (phy : Phy) : System := {s with shared := {s.shared with phy := phy}}

/-- The system with other data of the Device Policy Manager. -/
def withDpm (dpm : Dpm) : System := {s with shared := {s.shared with dpm := dpm}}

end System

/-- A packet at the end of the receive FIFO. -/
def Phy.receive (phy : Phy) (p : Packet) : Phy := {phy with rxFifo := phy.rxFifo++[p]}

/-- Other raised interrupts. -/
def Phy.raised (phy : Phy) (interrupts : Interrupts) : Phy := {phy with interrupts := interrupts}

/-- The effect of the environment. The periodic timer fires only while it
runs, and then it stops. -/
def environment (e : Environment) (s : System) : Option System :=
  let phy := s.shared.phy
  let i := phy.interrupts
  match e with
  | .sourceMessage m =>
    some (s.withPhy (Phy.raised (Phy.receive phy ⟨.source,m⟩) {i with gcrcsent := true}))
  | .goodcrc m => some (s.withPhy (Phy.raised (Phy.receive phy ⟨.goodcrc,m⟩) {i with txsent := true}))
  | .retryfail => some (s.withPhy (Phy.raised phy {i with retryfail := true}))
  | .hardrst => some (s.withPhy (Phy.raised phy {i with hardrst := true}))
  | .hardsent => some (s.withPhy (Phy.raised phy {i with hardsent := true}))
  | .ocpTemp ovrTemp =>
    some (s.withPhy {Phy.raised phy {i with ocpTemp := true} with ovrTemp := ovrTemp})
  | .bcLvl level => some (s.withPhy {phy with bcLvl := level})
  | .ppsTimer =>
    if s.shared.ppsTimer then
      some {s.signalled .pePpsRequest with shared := {s.shared with ppsTimer := false}}
    else none
  | .newPower => some (s.signalled .peNewPower)
  | .getSourceCap => some (s.signalled .peGetSourceCap)
  | .output enabled => some (s.withDpm {s.shared.dpm with outputEnabled := enabled})
  | .usbComms capable => some (s.withDpm {s.shared.dpm with usbComms := capable})
  | .profile n => some {s with shared := {s.shared with profile := n}}
  | .storeConfig config => some {s with shared := {s.shared with config := config}}
  | .junk m config => some {s with shared := {s.shared with junk := m,junkConfig := config}}

/-- The firmware after its initialization: no flag pending, empty mailboxes,
a full pool, no stored MessageID, and every thread at its first action. -/
def initial : System where
  pending := fun _ => false
  pe := ⟨.sinkStartup,.start,none,none,none,false,false,0,-1,8,8⟩
  rx := ⟨.waitPhy,none⟩
  tx := ⟨.phyReset,none⟩
  hr := ⟨.resetLayer⟩
  intN := ⟨.poll⟩
  shared :=
    {peMailbox := [],txMailbox := [],pool := List.range pdbMsgPoolSize
     hdrTemplate := pdDataroleUfp ||| pdPowerroleSink
     rxMessageid := -1,txMessageidcounter := 0,ppsTimer := false
     dpm := ⟨none,true,false,false,false,5000,0,false⟩
     config := none,profile := 0
     phy := ⟨[],none,.none,false,.none⟩
     junk := ⟨0,fun _ => 0⟩,junkConfig := ⟨0,0,0,0,0,0⟩}

/-- One action of one thread, or of the environment. -/
def act (l : Label) (s : System) : Option System :=
  match l with
  | .pe => ((policyEngine s.pe).perform false s.pending s.shared).map s.withPe
  | .peTimeout => ((policyEngine s.pe).perform true s.pending s.shared).map s.withPe
  | .rx => ((protocolRx s.rx).perform false s.pending s.shared).map s.withRx
  | .tx => ((protocolTx s.tx).perform false s.pending s.shared).map s.withTx
  | .hr => ((hardReset s.hr).perform false s.pending s.shared).map s.withHr
  | .hrTimeout => ((hardReset s.hr).perform true s.pending s.shared).map s.withHr
  | .intN => ((intNPoll s.intN).perform false s.pending s.shared).map s.withIntN
  | .env e => environment e s

/-- The firmware and everything that can happen to it. -/
def firmware : Machine System Label := ⟨initial,act⟩

/-! ## Routine exchanges -/

/-- A control message from the source. -/
def controlMessage (msgtype : BitVec 16) (id : ℕ) : PdMsg :=
  PdMsg.setMessageid ⟨pdSpecrev20 ||| msgtype,fun _ => 0⟩ id

/-- Capabilities of a source that offers 5 V at 3 A. -/
def sourceCapabilities (id : ℕ) : PdMsg :=
  PdMsg.setMessageid ⟨pdSpecrev20 ||| pdMsgtypeSourceCapabilities ||| pdNumobj 1,
    fun _ => 0x0001912C⟩ id

/-- The threads reach their first waits. -/
def powerUp : List Label := [.pe,.pe,.tx,.tx]

/-- A message arrives, is reported, and passes through Protocol RX while
Protocol TX, having nothing to discard, resets the PHY. -/
def deliver (m : PdMsg) : List Label :=
  [.env (.sourceMessage m),.intN,.intN,.rx,.rx,.rx,.rx,.rx,.tx,.tx,.tx,.tx,.rx,.rx,.rx,
    .intN,.intN,.intN]

/-- Protocol TX takes a request and hands the message to the PHY. -/
def send : List Label := [.tx,.tx,.tx,.tx,.tx]

/-- The GoodCRC arrives, is reported and matched. -/
def acknowledge (id : ℕ) : List Label :=
  [.env (.goodcrc (controlMessage pdMsgtypeGoodcrc id)),.intN,.intN,.intN,.tx,.tx,.tx,.tx,.tx,
    .intN,.intN]

/-- From power-up to a Request that waits to be sent. -/
def request : List Label :=
  List.flatten [powerUp,deliver (sourceCapabilities 0),[.pe,.pe,.pe,.pe,.pe,.pe]]

/-- From power-up to an explicit contract. -/
def negotiate : List Label :=
  List.flatten [request,send,acknowledge 0,[.pe,.pe],deliver (controlMessage pdMsgtypeAccept 1),
    [.pe,.pe,.pe],deliver (controlMessage pdMsgtypePsRdy 2),[.pe,.pe,.pe]]

/-! ## Whose step it is -/

/-- A step of the firmware, by who takes it. -/
inductive Moved (s : System) : Label → System → Prop where
  /-- An action of the Policy Engine, or the expiry of its wait. -/
  | pe {l : Label} {expired : Bool} {o : Outcome Event PolicyEngine Shared}
      (hl : l.isPe=true) (he : expired=true ↔ l=.peTimeout)
      (h : (policyEngine s.pe).perform expired s.pending s.shared=some o) : Moved s l (s.withPe o)
  /-- An action of Protocol RX. -/
  | rx {o : Outcome Event ProtocolRx Shared} (h : RxStep s.rx s.pending s.shared o) :
      Moved s .rx (s.withRx o)
  /-- An action of Protocol TX. -/
  | tx {o : Outcome Event ProtocolTx Shared} (h : TxStep s.tx s.pending s.shared o) :
      Moved s .tx (s.withTx o)
  /-- An action of the Hard Reset thread, or the expiry of its wait. -/
  | hr {l : Label} {o : Outcome Event HardReset Shared} (hl : l=.hr ∨ l=.hrTimeout)
      (h : HrStep s.hr s.pending s.shared o) : Moved s l (s.withHr o)
  /-- An action of the polling thread. -/
  | intN {o : Outcome Event IntN Shared} (h : IntNStep s.intN s.pending s.shared o) :
      Moved s .intN (s.withIntN o)
  /-- Something the environment does. -/
  | env {e : Environment} {s' : System} (h : environment e s=some s') : Moved s (.env e) s'

/-- Every step of the firmware belongs to a thread or to the environment. -/
theorem firmware_moved {s s' : System} {l : Label} (h : firmware.step l s=some s') : Moved s l s' := by
  change act l s=some s' at h
  cases l with
  | pe =>
    obtain ⟨o,ho,rfl⟩ := Option.map_eq_some_iff.mp h
    exact .pe rfl (by simp) ho
  | peTimeout =>
    obtain ⟨o,ho,rfl⟩ := Option.map_eq_some_iff.mp h
    exact .pe rfl (by simp) ho
  | rx =>
    obtain ⟨o,ho,rfl⟩ := Option.map_eq_some_iff.mp h
    exact .rx (protocolRx_step ho)
  | tx =>
    obtain ⟨o,ho,rfl⟩ := Option.map_eq_some_iff.mp h
    exact .tx (protocolTx_step ho)
  | hr =>
    obtain ⟨o,ho,rfl⟩ := Option.map_eq_some_iff.mp h
    exact .hr (.inl rfl) (hardReset_step ho)
  | hrTimeout =>
    obtain ⟨o,ho,rfl⟩ := Option.map_eq_some_iff.mp h
    exact .hr (.inr rfl) (hardReset_step ho)
  | intN =>
    obtain ⟨o,ho,rfl⟩ := Option.map_eq_some_iff.mp h
    exact .intN (intNPoll_step ho)
  | env e => exact .env h

/-- Only Protocol RX acts under its label. -/
theorem exists_rxStep {s s' : System} {l : Label} (h : Moved s l s') (hl : l.isRx=true) :
    ∃ o, RxStep s.rx s.pending s.shared o ∧ s'=s.withRx o := by
  cases h with
  | pe hl' he hp => rcases Label.eq_of_isPe hl' with rfl | rfl <;> exact absurd hl (by decide)
  | rx hr => exact ⟨_,hr,rfl⟩
  | hr hl' hh => rcases hl' with rfl | rfl <;> exact absurd hl (by decide)
  | _ => exact absurd hl (by simp [Label.isRx])

/-- Only Protocol TX acts under its label. -/
theorem exists_txStep {s s' : System} {l : Label} (h : Moved s l s') (hl : l.isTx=true) :
    ∃ o, TxStep s.tx s.pending s.shared o ∧ s'=s.withTx o := by
  cases h with
  | pe hl' he hp => rcases Label.eq_of_isPe hl' with rfl | rfl <;> exact absurd hl (by decide)
  | tx ht => exact ⟨_,ht,rfl⟩
  | hr hl' hh => rcases hl' with rfl | rfl <;> exact absurd hl (by decide)
  | _ => exact absurd hl (by simp [Label.isTx])

/-- The wait expires exactly under the label that says so. -/
theorem expired_eq {l : Label} {expired : Bool} (hl : l.isPe=true)
    (he : expired=true ↔ l=.peTimeout) : expired=l.isPeTimeout := by
  rcases Label.eq_of_isPe hl with rfl | rfl
  · exact Bool.eq_false_iff.mpr fun hx => absurd (he.mp hx) (by simp)
  · exact he.mpr rfl

/-- Only the Policy Engine acts under its labels. -/
theorem exists_peStep {s s' : System} {l : Label} (h : Moved s l s') (hl : l.isPe=true) :
    ∃ o, (policyEngine s.pe).perform l.isPeTimeout s.pending s.shared=some o ∧ s'=s.withPe o := by
  cases h with
  | pe hl' he hp =>
    rw [expired_eq hl' he] at hp
    exact ⟨_,hp,rfl⟩
  | hr hl' hh => rcases hl' with rfl | rfl <;> exact absurd hl (by decide)
  | _ => exact absurd hl (by simp [Label.isPe])

/-- Flags the user and the periodic timer raise. -/
def userEvents : List Event := [.pePpsRequest,.peGetSourceCap,.peNewPower]

/-- What the environment leaves alone. -/
structure EnvironmentFrame (s s' : System) : Prop where
  /-- The Policy Engine. -/
  pe : s'.pe=s.pe
  /-- Protocol RX. -/
  rx : s'.rx=s.rx
  /-- Protocol TX. -/
  tx : s'.tx=s.tx
  /-- The Hard Reset thread. -/
  hr : s'.hr=s.hr
  /-- The polling thread. -/
  intN : s'.intN=s.intN
  /-- Every flag but those of the user. -/
  pending : ∀ e ∉ userEvents, s'.pending e=s.pending e
  /-- The Policy Engine's mailbox. -/
  peMailbox : s'.shared.peMailbox=s.shared.peMailbox
  /-- Protocol TX's mailbox. -/
  txMailbox : s'.shared.txMailbox=s.shared.txMailbox
  /-- The header template. -/
  hdrTemplate : s'.shared.hdrTemplate=s.shared.hdrTemplate
  /-- The stored MessageID. -/
  rxMessageid : s'.shared.rxMessageid=s.shared.rxMessageid
  /-- The counter of Protocol TX. -/
  txMessageidcounter : s'.shared.txMessageidcounter=s.shared.txMessageidcounter
  /-- The output. -/
  outCtrl : s'.shared.dpm.outCtrl=s.shared.dpm.outCtrl

/-- The environment reaches the threads through the PHY, the user's flags and
the manager's settings only. -/
theorem environment_frame {e : Environment} {s s' : System} (h : environment e s=some s') :
    EnvironmentFrame s s' := by
  have hraise (f : Event) (hf : f ∈ userEvents) :
      ∀ e ∉ userEvents, (s.signalled f).pending e=s.pending e := by
    intro e he
    have hne : e≠f := fun h => he (h ▸ hf)
    simp [System.signalled,hne]
  cases e
  case ppsTimer =>
    simp only [environment,Option.ite_none_right_eq_some,Option.some.injEq] at h
    obtain ⟨-,rfl⟩ := h
    exact ⟨rfl,rfl,rfl,rfl,rfl,hraise _ (by decide),rfl,rfl,rfl,rfl,rfl,rfl⟩
  case newPower =>
    cases h
    exact ⟨rfl,rfl,rfl,rfl,rfl,hraise _ (by decide),rfl,rfl,rfl,rfl,rfl,rfl⟩
  case getSourceCap =>
    cases h
    exact ⟨rfl,rfl,rfl,rfl,rfl,hraise _ (by decide),rfl,rfl,rfl,rfl,rfl,rfl⟩
  all_goals
    cases h
    exact ⟨rfl,rfl,rfl,rfl,rfl,fun _ _ => rfl,rfl,rfl,rfl,rfl,rfl,rfl⟩

end UsbPdFirmware.FirmwareSystem
