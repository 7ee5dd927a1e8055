import Mathlib.Data.List.Basic
import Mathlib.Logic.Function.Basic
import UsbPdFirmware.LabelledRuns

/-!
# Routines that hold a bus

Threads call routines that acquire a bus, make transfers on it, write to
memory they share meanwhile, and release the bus. Whoever else calls what in
between, and whatever the device answers, the transfers are those of the
calls one after the other, in the order in which they acquired the bus.
-/

namespace UsbPdFirmware.BusSections

open LabelledRuns Machine

variable {Thread Call Memory Request Reply Result : Type}

/-! ## Routines -/

/-- What a routine does while it holds the bus. -/
inductive Script (Memory Request Reply Result : Type) where
  /-- It is finished. -/
  | done (result : Result)
  /-- It writes to the memory that is shared. -/
  | store (f : Memory → Memory) (next : Script Memory Request Reply Result)
  /-- It makes a transfer, which that memory may determine. -/
  | transfer (request : Memory → Request) (next : Reply → Script Memory Request Reply Result)

section Runs

variable (fits : Request → Reply → Bool)

/-- Alone, a routine makes these transfers up to this point. -/
inductive Runs : Script Memory Request Reply Result → Memory → List (Request × Reply) →
    Script Memory Request Reply Result → Memory → Prop where
  | refl (s : Script Memory Request Reply Result) (m : Memory) : Runs s m [] s m
  | store {f : Memory → Memory} {next s : Script Memory Request Reply Result} {m m' : Memory}
      {ts : List (Request × Reply)} (h : Runs next (f m) ts s m') : Runs (.store f next) m ts s m'
  | transfer {request : Memory → Request} {next : Reply → Script Memory Request Reply Result}
      {s : Script Memory Request Reply Result} {m m' : Memory} {ts : List (Request × Reply)} {reply : Reply}
      (hf : fits (request m) reply=true) (h : Runs (next reply) m ts s m') :
      Runs (.transfer request next) m ((request m,reply)::ts) s m'

variable {fits} {s next : Script Memory Request Reply Result} {m m' : Memory} {ts : List (Request × Reply)}

/-- One run goes on with another. -/
theorem Runs.trans {s' : Script Memory Request Reply Result} {m'' : Memory} {ts' : List (Request × Reply)}
    (h : Runs fits s m ts s' m') (h' : Runs fits s' m' ts' next m'') : Runs fits s m (ts++ts') next m'' := by
  induction h with
  | refl => exact h'
  | store _ ih => exact .store (ih h')
  | transfer hf _ ih => exact .transfer hf (ih h')

/-- It goes on to write to memory. -/
theorem Runs.stored {f : Memory → Memory} (h : Runs fits s m ts (.store f next) m') :
    Runs fits s m ts next (f m') := by
  have hnext := h.trans (.store (.refl next (f m')))
  rwa [List.append_nil] at hnext

/-- It goes on to make a transfer. -/
theorem Runs.transferred {request : Memory → Request} {reply : Reply}
    {following : Reply → Script Memory Request Reply Result}
    (h : Runs fits s m ts (.transfer request following) m') (hf : fits (request m') reply=true) :
    Runs fits s m (ts++[(request m',reply)]) (following reply) m' :=
  h.trans (.transfer hf (.refl (following reply) m'))

/-- With an answer to every request it comes to an end. -/
theorem Script.exists_done (hfits : ∀ request, ∃ reply, fits request reply=true)
    (s : Script Memory Request Reply Result) (m : Memory) :
    ∃ ts r m', Runs fits s m ts (.done r) m' := by
  induction s generalizing m with
  | done r => exact ⟨[],r,m,.refl _ m⟩
  | store f next ih =>
    obtain ⟨ts,r,m',h⟩ := ih (f m)
    exact ⟨ts,r,m',.store h⟩
  | transfer request next ih =>
    obtain ⟨reply,hf⟩ := hfits (request m)
    obtain ⟨ts,r,m',h⟩ := ih reply m
    exact ⟨_,r,m',.transfer hf h⟩

/-- Nothing is left to do. -/
theorem runs_done {r r' : Result} :
    Runs fits (.done r) m ts (.done r') m' ↔ ts=[] ∧ r'=r ∧ m'=m := by
  constructor
  · rintro ⟨⟩
    exact ⟨rfl,rfl,rfl⟩
  · rintro ⟨rfl,rfl,rfl⟩
    exact .refl _ _

/-- A write to memory comes first. -/
theorem runs_store {f : Memory → Memory} {r : Result} :
    Runs fits (.store f next) m ts (.done r) m' ↔ Runs fits next (f m) ts (.done r) m' := by
  constructor
  · rintro ⟨⟩
    assumption
  · exact .store

/-- A transfer comes first. -/
theorem runs_transfer {request : Memory → Request} {following : Reply → Script Memory Request Reply Result}
    {r : Result} : Runs fits (.transfer request following) m ts (.done r) m' ↔
      ∃ reply ts', ts=(request m,reply)::ts' ∧ fits (request m) reply=true ∧
        Runs fits (following reply) m ts' (.done r) m' := by
  constructor
  · rintro ⟨⟩
    exact ⟨_,_,rfl,by assumption,by assumption⟩
  · rintro ⟨reply,ts',rfl,hf,h⟩
    exact .transfer hf h

/-- Whatever is answered, the routine makes only transfers of a kind. -/
def Script.Makes (P : Request → Prop) : Script Memory Request Reply Result → Prop
  | .done _ => True
  | .store _ next => next.Makes P
  | .transfer request next => (∀ m, P (request m)) ∧ ∀ reply, (next reply).Makes P

/-- So do its runs. -/
theorem Runs.makes {P : Request → Prop} (h : Runs fits s m ts next m') (hs : s.Makes P) :
    ∀ t ∈ ts, P t.1 := by
  induction h with
  | refl => exact fun t ht => absurd ht List.not_mem_nil
  | store _ ih => exact ih hs
  | transfer _ _ ih => exact List.forall_mem_cons.mpr ⟨hs.1 _,ih (hs.2 _)⟩

end Runs

/-! ## Threads -/

/-- Where a thread stands. -/
inductive Phase (Call Memory Request Reply Result : Type) where
  | idle
  /-- It wants to acquire the bus. -/
  | waiting (call : Call)
  /-- It is in the routine, with this still to do. -/
  | inside (call : Call) (rest : Script Memory Request Reply Result)

/-- The bus, the threads and the memory they share. -/
structure Bus (Thread Call Memory Request Reply Result : Type) where
  /-- Who holds the bus. -/
  holder : Option Thread
  /-- The threads. -/
  phase : Thread → Phase Call Memory Request Reply Result
  /-- The memory. -/
  memory : Memory

/-- What happens next. -/
inductive Event (Thread Call Reply : Type) where
  /-- A thread calls a routine. -/
  | call (t : Thread) (c : Call)
  /-- It acquires the bus, which must be free. -/
  | acquire (t : Thread)
  /-- It writes to memory. -/
  | store (t : Thread)
  /-- It makes a transfer, and the device answers. -/
  | transfer (t : Thread) (reply : Reply)
  /-- It releases the bus and returns. -/
  | release (t : Thread)

section Step

variable [DecidableEq Thread]

/-- The bus with a thread at another point. -/
def Bus.at (b : Bus Thread Call Memory Request Reply Result) (t : Thread)
    (phase : Phase Call Memory Request Reply Result) : Bus Thread Call Memory Request Reply Result :=
  {b with phase := Function.update b.phase t phase}

/-- Threads that call these routines. -/
def bus (script : Call → Script Memory Request Reply Result) (fits : Request → Reply → Bool)
    (memory : Memory) : Machine (Bus Thread Call Memory Request Reply Result) (Event Thread Call Reply) where
  start := ⟨none,fun _ => .idle,memory⟩
  step e b := match e with
    | .call t c => match b.phase t with
      | .idle => some (b.at t (.waiting c))
      | _ => none
    | .acquire t => match b.phase t,b.holder with
      | .waiting c,none => some {b.at t (.inside c (script c)) with holder := some t}
      | _,_ => none
    | .store t => match b.phase t with
      | .inside c (.store f next) => some {b.at t (.inside c next) with memory := f b.memory}
      | _ => none
    | .transfer t reply => match b.phase t with
      | .inside c (.transfer request next) =>
        if fits (request b.memory) reply then some (b.at t (.inside c (next reply))) else none
      | _ => none
    | .release t => match b.phase t with
      | .inside _ (.done _) => some {b.at t .idle with holder := none}
      | _ => none

end Step

/-! ## What happened -/

/-- What happened on the bus. -/
structure Log (Thread Call Request Reply Result : Type) where
  /-- Who acquired the bus, and for what. -/
  acquired : List (Thread × Call)
  /-- The transfers, and whose they were. -/
  transfers : List (Thread × Request × Reply)
  /-- Who released the bus, and what was returned. -/
  released : List (Thread × Result)

/-- What an event adds. -/
def record (log : Log Thread Call Request Reply Result) (b : Bus Thread Call Memory Request Reply Result)
    (e : Event Thread Call Reply) (_ : Bus Thread Call Memory Request Reply Result) :
    Log Thread Call Request Reply Result :=
  match e with
  | .acquire t => match b.phase t with
    | .waiting c => {log with acquired := log.acquired++[(t,c)]}
    | _ => log
  | .transfer t reply => match b.phase t with
    | .inside _ (.transfer request _) =>
      {log with transfers := log.transfers++[(t,request b.memory,reply)]}
    | _ => log
  | .release t => match b.phase t with
    | .inside _ (.done result) => {log with released := log.released++[(t,result)]}
    | _ => log
  | _ => log

/-- The bus with its log. -/
def logged [DecidableEq Thread] (script : Call → Script Memory Request Reply Result)
    (fits : Request → Reply → Bool) (memory : Memory) :
    Machine (Bus Thread Call Memory Request Reply Result × Log Thread Call Request Reply Result)
      (Event Thread Call Reply) :=
  (bus script fits memory).observe ⟨[],[],[]⟩ record

/-! ## One call after the other -/

/-- One call, from beginning to end. -/
structure Section (Thread Call Request Reply Result : Type) where
  /-- Whose it is. -/
  thread : Thread
  /-- What is called. -/
  call : Call
  /-- Its transfers. -/
  transfers : List (Request × Reply)
  /-- What it returns. -/
  result : Result

/-- The transfers, as the log has them. -/
def Section.logged (x : Section Thread Call Request Reply Result) : List (Thread × Request × Reply) :=
  x.transfers.map fun r => (x.thread,r)

/-- Calls run alone, one after the other, from one content of memory to another. -/
inductive InTurn (script : Call → Script Memory Request Reply Result) (fits : Request → Reply → Bool)
    (m : Memory) : List (Section Thread Call Request Reply Result) → Memory → Prop where
  | nil : InTurn script fits m [] m
  | snoc {m' m'' : Memory} {xs : List (Section Thread Call Request Reply Result)}
      {x : Section Thread Call Request Reply Result} (h : InTurn script fits m xs m')
      (hx : Runs fits (script x.call) m' x.transfers (.done x.result) m'') :
      InTurn script fits m (xs++[x]) m''

/-- What the calls that are over, and the one that holds the bus, account for. -/
def Accounted (script : Call → Script Memory Request Reply Result) (fits : Request → Reply → Bool)
    (memory : Memory) (b : Bus Thread Call Memory Request Reply Result)
    (log : Log Thread Call Request Reply Result) : Prop :=
  ∃ sections m, InTurn script fits memory sections m ∧
    log.released=sections.map (fun x => (x.thread,x.result)) ∧
    match b.holder with
    | none => m=b.memory ∧ log.acquired=sections.map (fun x => (x.thread,x.call)) ∧
        log.transfers=sections.flatMap Section.logged
    | some t => ∃ c rest ts, b.phase t=.inside c rest ∧ Runs fits (script c) m ts rest b.memory ∧
        log.acquired=sections.map (fun x => (x.thread,x.call))++[(t,c)] ∧
        log.transfers=sections.flatMap Section.logged++ts.map fun r => (t,r)

section Reach

variable {script : Call → Script Memory Request Reply Result}
  {fits : Request → Reply → Bool} {memory : Memory} {b b' : Bus Thread Call Memory Request Reply Result}
  {log : Log Thread Call Request Reply Result} {t u : Thread} {c : Call}
  {phase : Phase Call Memory Request Reply Result} {rest : Script Memory Request Reply Result}

/-- What holds of every call that runs alone holds of those that ran. -/
theorem InTurn.all {P : Section Thread Call Request Reply Result → Prop} {m m' : Memory}
    {xs : List (Section Thread Call Request Reply Result)} (h : InTurn script fits m xs m')
    (hP : ∀ x m m', Runs fits (script x.call) m x.transfers (.done x.result) m' → P x) :
    ∀ x ∈ xs, P x := by
  induction h with
  | nil => exact fun x hx => absurd hx List.not_mem_nil
  | snoc _ hx ih =>
    intro y hy
    rcases List.mem_append.mp hy with hy | hy
    · exact ih y hy
    · rw [List.mem_singleton.mp hy]
      exact hP _ _ _ hx

/-- The call under way, of the thread that holds the bus. -/
theorem Accounted.current (h : Accounted script fits memory b log) (hholder : b.holder=some t)
    (hp : b.phase t=.inside c rest) :
    ∃ sections m ts, InTurn script fits memory sections m ∧
      log.released=sections.map (fun x => (x.thread,x.result)) ∧
      Runs fits (script c) m ts rest b.memory ∧
      log.acquired=sections.map (fun x => (x.thread,x.call))++[(t,c)] ∧
      log.transfers=sections.flatMap Section.logged++ts.map fun r => (t,r) := by
  obtain ⟨sections,m,hturn,hreleased,hheld⟩ := h
  rw [hholder] at hheld
  obtain ⟨c',rest',ts,hp',hruns,hacquired,htransfers⟩ := hheld
  cases hp.symm.trans hp'
  exact ⟨sections,m,ts,hturn,hreleased,hruns,hacquired,htransfers⟩

variable [DecidableEq Thread]

theorem at_self : (b.at t phase).phase t=phase := by
  unfold Bus.at
  exact Function.update_self ..

theorem at_other (h : u≠t) : (b.at t phase).phase u=b.phase u := by
  unfold Bus.at
  exact Function.update_of_ne h ..

/-- Whoever is in a routine holds the bus. -/
def Exclusive (b : Bus Thread Call Memory Request Reply Result) : Prop :=
  ∀ t c rest, b.phase t=.inside c rest → b.holder=some t

/-- A thread outside a routine stays outside. -/
theorem Exclusive.outside (h : Exclusive b) (ht : ∀ c rest, phase≠.inside c rest) :
    Exclusive (b.at t phase) := by
  intro u c rest hu
  by_cases hut : u=t
  · rw [hut,at_self] at hu
    exact absurd hu (ht c rest)
  · rw [at_other hut] at hu
    exact h u c rest hu

/-- The holder goes on. -/
theorem Exclusive.inside (h : Exclusive b) (ht : b.holder=some t) : Exclusive (b.at t phase) := by
  intro u c rest hu
  by_cases hut : u=t
  · rw [hut]
    exact ht
  · rw [at_other hut] at hu
    exact h u c rest hu

/-- No two threads are in a routine. -/
theorem exclusive_step {e : Event Thread Call Reply} (h : Exclusive b)
    (hs : (bus script fits memory).step e b=some b') : Exclusive b' := by
  cases e with
  | call t c =>
    simp only [bus] at hs
    split at hs
    · cases hs
      exact h.outside nofun
    · cases hs
  | acquire t =>
    simp only [bus] at hs
    split at hs
    · next c hp hfree =>
      cases hs
      intro u c' rest hu
      by_cases hut : u=t
      · rw [hut]
      · have hu' : b.phase u=.inside c' rest := (at_other hut).symm.trans hu
        exact absurd ((h u c' rest hu').symm.trans hfree) (by simp)
    · cases hs
  | store t =>
    simp only [bus] at hs
    split at hs
    · next c f next hp =>
      cases hs
      exact h.inside (h t _ _ hp)
    · cases hs
  | transfer t reply =>
    simp only [bus] at hs
    split at hs
    · next c request next hp =>
      split at hs
      · cases hs
        exact h.inside (h t _ _ hp)
      · cases hs
    · cases hs
  | release t =>
    simp only [bus] at hs
    split at hs
    · next c result hp =>
      cases hs
      have hholder := h t _ _ hp
      intro u c' rest hu
      by_cases hut : u=t
      · rw [hut] at hu
        exact absurd (at_self.symm.trans hu) (by simp)
      · have hu' : b.phase u=.inside c' rest := (at_other hut).symm.trans hu
        exact absurd (Option.some_inj.mp ((h u c' rest hu').symm.trans hholder)) hut
    · cases hs

/-- What a thread outside a routine does is no one's concern. -/
theorem Accounted.outside (h : Accounted script fits memory b log) (ht : b.holder≠some t) :
    Accounted script fits memory (b.at t phase) log := by
  obtain ⟨sections,m,hturn,hreleased,hheld⟩ := h
  refine ⟨sections,m,hturn,hreleased,?_⟩
  change match b.holder with
    | none => _
    | some u => ∃ c rest ts, (b.at t phase).phase u=_ ∧ _
  cases hholder : b.holder with
  | none =>
    rw [hholder] at hheld
    exact hheld
  | some u =>
    rw [hholder] at hheld
    obtain ⟨c,rest,ts,hp,hothers⟩ := hheld
    have hut : u≠t := fun hut => ht (by rw [hholder,hut])
    exact ⟨c,rest,ts,(at_other hut).trans hp,hothers⟩

/-- Every event is accounted for. -/
theorem accounted_step {e : Event Thread Call Reply} (hx : Exclusive b)
    (h : Accounted script fits memory b log) (hs : (bus script fits memory).step e b=some b') :
    Accounted script fits memory b' (record log b e b') := by
  cases e with
  | call t c =>
    simp only [bus] at hs
    split at hs
    · next hp =>
      cases hs
      refine h.outside fun hholder => ?_
      obtain ⟨sections,m,hturn,hreleased,hheld⟩ := h
      rw [hholder] at hheld
      obtain ⟨c',rest',ts,hp',-⟩ := hheld
      exact absurd (hp.symm.trans hp') (by simp)
    · cases hs
  | acquire t =>
    simp only [bus] at hs
    split at hs
    · next c hp hfree =>
      cases hs
      obtain ⟨sections,m,hturn,hreleased,hheld⟩ := h
      rw [hfree] at hheld
      obtain ⟨hm,hacquired,htransfers⟩ := hheld
      simp only [record,hp]
      refine ⟨sections,m,hturn,hreleased,c,script c,[],at_self,?_,?_,?_⟩
      · rw [hm]
        exact .refl _ _
      · rw [hacquired]
      · rw [htransfers]
        exact (List.append_nil _).symm
    · cases hs
  | store t =>
    simp only [bus] at hs
    split at hs
    · next c f next hp =>
      cases hs
      have hholder := hx t _ _ hp
      obtain ⟨sections,m,ts,hturn,hreleased,hruns,hothers⟩ := h.current hholder hp
      refine ⟨sections,m,hturn,hreleased,?_⟩
      change match b.holder with
        | none => _
        | some u => ∃ c' rest ts, (b.at t (.inside c next)).phase u=_ ∧ _
      rw [hholder]
      exact ⟨c,next,ts,at_self,hruns.stored,hothers⟩
    · cases hs
  | transfer t reply =>
    simp only [bus] at hs
    split at hs
    · next c request next hp =>
      split at hs
      · next hf =>
        cases hs
        have hholder := hx t _ _ hp
        obtain ⟨sections,m,ts,hturn,hreleased,hruns,hacquired,htransfers⟩ := h.current hholder hp
        simp only [record,hp]
        refine ⟨sections,m,hturn,hreleased,?_⟩
        change match b.holder with
          | none => _
          | some u => ∃ c' rest ts, (b.at t (.inside c (next reply))).phase u=_ ∧ _
        rw [hholder]
        refine ⟨c,next reply,ts++[(request b.memory,reply)],at_self,hruns.transferred hf,hacquired,?_⟩
        dsimp only
        rw [htransfers,List.map_append,List.append_assoc]
        rfl
      · cases hs
    · cases hs
  | release t =>
    simp only [bus] at hs
    split at hs
    · next c result hp =>
      cases hs
      have hholder := hx t _ _ hp
      obtain ⟨sections,m,ts,hturn,hreleased,hruns,hacquired,htransfers⟩ := h.current hholder hp
      simp only [record,hp]
      refine ⟨sections++[⟨t,c,ts,result⟩],b.memory,.snoc hturn hruns,?_,rfl,?_,?_⟩
      · rw [hreleased,List.map_append]
        rfl
      · rw [hacquired,List.map_append]
        rfl
      · rw [htransfers,List.flatMap_append,List.flatMap_singleton]
        rfl
    · cases hs

/-- Whatever the threads and the device do, the calls run one after the other
in the order in which they acquired the bus. -/
theorem accounted_of_reach
    {p : Bus Thread Call Memory Request Reply Result × Log Thread Call Request Reply Result}
    (h : (logged script fits memory).Reach anyStep p) :
    Exclusive p.1 ∧ Accounted script fits memory p.1 p.2 := by
  refine h.observed_invariant (I := fun b log => Exclusive b ∧ Accounted script fits memory b log) ?_ ?_
  · exact ⟨nofun,[],memory,.nil,rfl,rfl,rfl,rfl⟩
  · rintro b log e b' - ⟨hx,hacc⟩ - hs
    exact ⟨exclusive_step hx hs,accounted_step hx hacc hs⟩

end Reach

end UsbPdFirmware.BusSections
