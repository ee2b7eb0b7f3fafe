import InfraFi.Base.Runs
import InfraFi.Flipper.Scenes

/-! # The parties of the transmit scene

At most one of the TX worker and the ACK listener lives, and neither outlives
the scene. Nothing takes events back, so the argument is about the order of
what is still queued.
-/
namespace InfraFi.Flipper.Gui
open Base Protocol

/-- All the messages of one send of the credentials. -/
def WholeSend (creds : WfrWifiCreds) (aired : List TxMessage) : Prop :=
  ∃ protocol, aired = startMessage protocol (fullWifiString creds) ::
    (fullWifiString creds).map (dataMessage protocol) ++ [endMessage protocol (fullWifiString creds)]

/-- What the scene owes its parties at each of the calls. -/
def Disciplined : Call → Prop
  | .startTx irWorker ackTimer => irWorker = none ∧ ackTimer = none
  | .startAckListener txThread irWorker ackTimer =>
    txThread = none ∧ irWorker = none ∧ ackTimer = none
  | .txFinished source latest => source = latest
  | .save creds aired => WholeSend creds aired
  | .exited txThread irWorker ackTimer => txThread = none ∧ irWorker = none ∧ ackTimer = none
  | .verdict _ | .delete _ => True

/-- At most one ACK listener lives, and the pointers are to its parts; its timer may have fired. -/
structure Listens (r : Radio) (listener : Option ℕ) : Prop where
  worker : r.irWorker = listener
  timer : r.ackTimer = listener
  receiving : r.receiving = listener.toList
  armed : r.armed = listener.toList ∨ r.armed = []

/-- A TX is started from the confirm scene only when no TxFinished of an earlier one is still
queued. -/
def FreshStart (app : WiFirApp) : Input → Prop
  | .custom _ =>
    match app.events with
    | e :: rest =>
      app.scene = some .confirm → e.event = .confirmSend → ∀ f ∈ rest, f.event ≠ .txFinished
    | [] => True
  | _ => True

instance FreshStart.decidable (app : WiFirApp) (i : Input) : Decidable (FreshStart app i) := by
  unfold FreshStart
  split
  · split <;> infer_instance
  · infer_instance

/-! ## What is still queued -/

/-- No verdict is queued behind a wish to send. -/
def VerdictsFirst (events : List Posted) : Prop :=
  events.Pairwise (fun e f => e.event = .confirmSend → f.event.isAck = false)

/-- The TX worker lives, or has ended without having been joined. -/
structure Sending (app : WiFirApp) (t : TxThread) : Prop where
  thread : app.radio.txThread = some t
  number : t.number = app.radio.txCount
  listener : Listens app.radio none
  retry : app.radio.retryAllowed = false
  mode : app.status.mode = .transmit
  view : app.view = .status
  no_ack : ∀ e ∈ app.events, e.event.isAck = false
  own : ∀ e ∈ app.events, e.event = .txFinished → e.source = app.radio.txCount ∧ t.phase = .returned
  order : app.events.Pairwise (fun e f => e.event = .txFinished →
    f.event ≠ .txFinished ∧ f.event ≠ .statusRight ∧ f.event ≠ .confirmSend)
  whole : t.phase ≠ .sending → app.radio.txOk = true → WholeSend app.radio.txCreds app.radio.aired

/-- An ACK listener lives. -/
structure Listening (app : WiFirApp) (n : ℕ) : Prop where
  thread : app.radio.txThread = none
  listener : Listens app.radio (some n)
  retry : app.radio.retryAllowed = false
  mode : app.status.mode = .waiting
  view : app.view = .status
  no_tx : ∀ e ∈ app.events, e.event ≠ .txFinished
  no_retry : ∀ e ∈ app.events, e.event ≠ .statusRight
  no_send : ∀ e ∈ app.events, e.event ≠ .confirmSend

/-- A result is on screen. What listeners have posted is queued ahead of any wish to retry. -/
structure Resting (app : WiFirApp) : Prop where
  thread : app.radio.txThread = none
  listener : Listens app.radio none
  no_tx : ∀ e ∈ app.events, e.event ≠ .txFinished
  order : app.events.Pairwise (fun e f => e.event = .statusRight → f.event.isAck = false)

def Busy (app : WiFirApp) : Prop := (∃ t, Sending app t) ∨ (∃ n, Listening app n) ∨ Resting app

/-- No party lives outside the transmit scene. -/
structure Outside (app : WiFirApp) : Prop where
  stack : .transmit ∉ app.sceneStack
  thread : app.radio.txThread = none
  listener : Listens app.radio none

/-- The transmit scene is current and nowhere below. -/
structure Inside (app : WiFirApp) : Prop where
  stack : ∃ below, app.sceneStack = .transmit :: below ∧ .transmit ∉ below
  busy : Busy app

structure Orderly (app : WiFirApp) : Prop where
  calls : ∀ c ∈ app.radio.calls, Disciplined c
  placed : Outside app ∨ Inside app
  first : VerdictsFirst app.events

/-! ## Starting and stopping the parties -/

theorem Listens.keep {r r' : Radio} {o : Option ℕ} (h : Listens r o) (hw : r'.irWorker = r.irWorker)
    (ht : r'.ackTimer = r.ackTimer) (hr : r'.receiving = r.receiving) (ha : r'.armed = r.armed) :
    Listens r' o :=
  ⟨hw.trans h.worker, ht.trans h.timer, hr.trans h.receiving, ha ▸ h.armed⟩

section Parties
variable {env : Env} {app : WiFirApp}

theorem stopAckListener_of_none (h : Listens app.radio none) : wiFirStopAckListener app = app := by
  simp [wiFirStopAckListener, stopTimer, stopWorker, h.worker, h.timer]

/-- Stopping leaves no listener. -/
theorem listens_stop (app : WiFirApp) {o : Option ℕ} (h : Listens app.radio o) :
    Listens (wiFirStopAckListener app).radio none := by
  have hfilter : o.toList.filter (fun n => some n ≠ o) = [] := by
    cases o <;> simp
  rw [stopAckListener_eq]
  refine ⟨rfl, rfl, ?_, .inl ?_⟩
  · change app.radio.receiving.filter _ = []
    rw [h.receiving, h.worker, hfilter]
  · change app.radio.armed.filter _ = []
    rw [h.timer]
    rcases h.armed with harmed | harmed <;> rw [harmed]
    · exact hfilter
    · rfl

end Parties

/-! ## Events come and go -/

section Events
variable {app app' : WiFirApp}

/-- Handling an event that changes nothing. -/
theorem Busy.sublist (h : Busy app) (hr : app'.radio = app.radio)
    (hm : app'.status.mode = app.status.mode) (hv : app'.view = app.view)
    (hev : app'.events.Sublist app.events) : Busy app' := by
  rcases h with ⟨t, h⟩ | ⟨n, h⟩ | h
  · refine .inl ⟨t, ?_⟩
    exact {
      thread := hr ▸ h.thread
      number := hr ▸ h.number
      listener := hr ▸ h.listener
      retry := hr ▸ h.retry
      mode := hm ▸ h.mode
      view := hv.trans h.view
      no_ack := fun e he => h.no_ack e (hev.subset he)
      own := fun e he => hr ▸ h.own e (hev.subset he)
      order := h.order.sublist hev
      whole := hr ▸ h.whole }
  · refine .inr (.inl ⟨n, ?_⟩)
    exact {
      thread := hr ▸ h.thread
      listener := hr ▸ h.listener
      retry := hr ▸ h.retry
      mode := hm ▸ h.mode
      view := hv.trans h.view
      no_tx := fun e he => h.no_tx e (hev.subset he)
      no_retry := fun e he => h.no_retry e (hev.subset he)
      no_send := fun e he => h.no_send e (hev.subset he) }
  · refine .inr (.inr ?_)
    exact {
      thread := hr ▸ h.thread
      listener := hr ▸ h.listener
      no_tx := fun e he => h.no_tx e (hev.subset he)
      order := h.order.sublist hev }

theorem VerdictsFirst.append {events : List Posted} {f : Posted} (h : VerdictsFirst events)
    (hf : f.event.isAck = false) : VerdictsFirst (events ++ [f]) :=
  List.pairwise_append.mpr ⟨h, List.pairwise_singleton _ _,
    fun _ _ _ hg _ => List.mem_singleton.mp hg ▸ hf⟩

theorem Posted.not_ofParty {f : Posted} (hf : ¬ f.OfParty) :
    f.event ≠ .txFinished ∧ f.event.isAck = false := by
  rw [OfParty, not_or, Bool.not_eq_true] at hf
  exact hf

/-- Any other party posts an event; keys of the status view are taken only while a result is on
screen, and a wish to send comes from another view. -/
theorem Busy.append {f : Posted} (h : Busy app) (hr : app'.radio = app.radio)
    (hm : app'.status = app.status) (hv : app'.view = app.view) (hev : app'.events = app.events ++ [f])
    (hf : ¬ f.OfParty) (hk : f.event = .statusRight → app.status.takesKeys = true)
    (hsend : f.event = .confirmSend → app.view = .confirm) : Busy app' := by
  obtain ⟨htx, hack⟩ := Posted.not_ofParty hf
  have hnosend (hview : app.view = .status) : f.event ≠ .confirmSend := by
    intro hs
    rw [hsend hs] at hview
    cases hview
  have hmem {Q : Posted → Prop} (hq : ∀ e ∈ app.events, Q e) (hqf : Q f) : ∀ e ∈ app'.events, Q e := by
    rw [hev]
    intro e he
    rcases List.mem_append.mp he with he | he
    · exact hq e he
    · rw [List.mem_singleton] at he
      exact he ▸ hqf
  have hlast {R : Posted → Posted → Prop} (hp : app.events.Pairwise R) (hR : ∀ e, R e f) :
      app'.events.Pairwise R := by
    rw [hev, List.pairwise_append]
    exact ⟨hp, List.pairwise_singleton _ _, fun e _ g hg => List.mem_singleton.mp hg ▸ hR e⟩
  rcases h with ⟨t, h⟩ | ⟨n, h⟩ | h
  · have hright : f.event ≠ .statusRight := by
      intro hright
      have hkeys := hk hright
      simp [WfrStatusViewModel.takesKeys, h.mode] at hkeys
    refine .inl ⟨t, ?_⟩
    exact {
      thread := hr ▸ h.thread
      number := hr ▸ h.number
      listener := hr ▸ h.listener
      retry := hr ▸ h.retry
      mode := hm ▸ h.mode
      view := hv.trans h.view
      no_ack := hmem h.no_ack hack
      own := by
        rw [hr]
        exact hmem h.own fun he => absurd he htx
      order := hlast h.order fun _ _ => ⟨htx, hright, hnosend h.view⟩
      whole := hr ▸ h.whole }
  · have hright : f.event ≠ .statusRight := by
      intro hright
      have hkeys := hk hright
      simp [WfrStatusViewModel.takesKeys, h.mode] at hkeys
    refine .inr (.inl ⟨n, ?_⟩)
    exact {
      thread := hr ▸ h.thread
      listener := hr ▸ h.listener
      retry := hr ▸ h.retry
      mode := hm ▸ h.mode
      view := hv.trans h.view
      no_tx := hmem h.no_tx htx
      no_retry := hmem h.no_retry hright
      no_send := hmem h.no_send (hnosend h.view) }
  · refine .inr (.inr ?_)
    exact {
      thread := hr ▸ h.thread
      listener := hr ▸ h.listener
      no_tx := hmem h.no_tx htx
      order := hlast h.order fun _ _ => hack }

theorem Busy.listens (h : Busy app) : ∃ o, Listens app.radio o := by
  rcases h with ⟨t, h⟩ | ⟨n, h⟩ | h
  · exact ⟨none, h.listener⟩
  · exact ⟨some n, h.listener⟩
  · exact ⟨none, h.listener⟩

end Events

/-! ## The transmit scene -/

section Scene
variable {env : Env} {app : WiFirApp} {below : List WiFirScene}

theorem disciplined_concat {cs : List Call} {c : Call} (h : ∀ d ∈ cs, Disciplined d)
    (hc : Disciplined c) : ∀ d ∈ cs ++ [c], Disciplined d := by
  intro d hd
  rcases List.mem_append.mp hd with hd | hd
  · exact h d hd
  · exact List.mem_singleton.mp hd ▸ hc

/-- A TX started with no event of a party queued. -/
theorem orderly_start (env : Env) (app : WiFirApp) (hcalls : ∀ c ∈ app.radio.calls, Disciplined c)
    (hstack : app.sceneStack = .transmit :: below) (hbelow : .transmit ∉ below)
    (hthread : app.radio.txThread = none) (hlistener : Listens app.radio none)
    (hfirst : VerdictsFirst app.events) (hq : ∀ e ∈ app.events, ¬ e.OfParty) :
    Orderly (wiFirStartTx env app) := by
  rw [wiFirStartTx, stopAckListener_of_none hlistener, stopTx_of_none hthread]
  refine ⟨?_, ?_, hfirst⟩
  · exact disciplined_concat hcalls ⟨hlistener.worker, hlistener.timer⟩
  · refine .inr ⟨⟨below, hstack, hbelow⟩, .inl ⟨⟨app.radio.txCount + 1, app.irProtocol, .sending⟩, ?_⟩⟩
    exact {
      thread := rfl
      number := rfl
      listener := hlistener.keep rfl rfl rfl rfl
      retry := rfl
      mode := rfl
      view := rfl
      no_ack := fun e he => (Posted.not_ofParty (hq e he)).2
      own := fun e he htx => absurd (.inl htx) (hq e he)
      order := by
        apply List.pairwise_of_forall_mem_list
        intro e he f _ htx
        exact absurd (.inl htx) (hq e he)
      whole := fun hphase => absurd rfl hphase }

/-- A worker that is joined behind its look at `tx_cancel` still posts. -/
theorem verdictsFirst_stopTx (env : Env) (app : WiFirApp) (h : VerdictsFirst app.events) :
    VerdictsFirst (wiFirStopTx env app).events := by
  rw [wiFirStopTx]
  split
  · rename_i t _
    change VerdictsFirst (joinTx env t _).events
    rw [joinTx]
    split
    · rcases env.redraw with _ | ⟨sent, total⟩ <;> exact h
    · exact h.append rfl
    all_goals exact h
  · exact h

/-- The exit handler leaves no party behind. -/
theorem exit_outside (env : Env) (app : WiFirApp) {o : Option ℕ}
    (hcalls : ∀ c ∈ app.radio.calls, Disciplined c) (hlistener : Listens app.radio o)
    (hstack : .transmit ∉ app.sceneStack) (hfirst : VerdictsFirst app.events) :
    (∀ c ∈ (wiFirSceneTransmitOnExit env app).radio.calls, Disciplined c) ∧
      Outside (wiFirSceneTransmitOnExit env app) ∧
      VerdictsFirst (wiFirSceneTransmitOnExit env app).events := by
  obtain ⟨hscenes, r, hkeep⟩ := stopTx_keeps env app
  have hstopped : Listens (wiFirStopTx env app).radio o := by
    rw [hkeep]
    exact hlistener.keep rfl rfl rfl rfl
  have hnone := listens_stop _ hstopped
  have hthread' : (wiFirStopAckListener (wiFirStopTx env app)).radio.txThread = none := by
    rw [stopAckListener_eq]
    change (wiFirStopTx env app).radio.txThread = none
    rw [hkeep]
  refine ⟨?_, ?_, verdictsFirst_stopTx env app hfirst⟩
  · apply disciplined_concat
    · rw [stopAckListener_eq]
      change ∀ c ∈ (wiFirStopTx env app).radio.calls, Disciplined c
      rwa [hkeep]
    · exact ⟨hthread', hnone.worker, hnone.timer⟩
  · refine ⟨?_, hthread', hnone.keep rfl rfl rfl rfl⟩
    change .transmit ∉ (wiFirStopAckListener (wiFirStopTx env app)).sceneStack
    rw [stopAckListener_eq]
    change .transmit ∉ (wiFirStopTx env app).sceneStack
    rwa [hscenes]

theorem Outside.keep {app' : WiFirApp} (h : Outside app) (hr : app'.radio = app.radio)
    (hs : app'.sceneStack = app.sceneStack) : Outside app' :=
  ⟨hs ▸ h.stack, hr ▸ h.thread, hr ▸ h.listener⟩

theorem orderly_dismiss (h : Orderly app) (hin : Inside app) : Orderly (wiFirDismiss env app) := by
  obtain ⟨⟨below, hstack, hnot⟩, hbusy⟩ := hin
  obtain ⟨o, hlistener⟩ := hbusy.listens
  rcases searchAndSwitch_cases env app .mainMenu with hsame | ⟨cur, below', found, hstack', hsub, hgo⟩
  · rw [wiFirDismiss, hsame]
    exact h
  · rw [hstack, List.cons.injEq] at hstack'
    obtain ⟨rfl, rfl⟩ := hstack'
    have hfound : .transmit ∉ found := fun hmem => hnot (hsub.subset hmem)
    obtain ⟨hcalls, hout, hfirst⟩ := exit_outside env { app with sceneStack := found }
      h.calls hlistener hfound h.first
    rw [wiFirDismiss, hgo]
    exact ⟨hcalls, .inl (hout.keep rfl rfl), hfirst⟩

/-- A TX in the queue is the last one, it has returned, and nobody asks for a retry behind it. -/
theorem orderly_txFinished (h : Orderly app) (hin : Inside app) {e : Posted} {rest : List Posted}
    (he : app.events = e :: rest) (htx : e.event = .txFinished) :
    Orderly (wiFirOnTxFinished env e.source { app with events := rest }) := by
  obtain ⟨⟨below, hstack, hnot⟩, ⟨t, hs⟩ | ⟨n, hl⟩ | hr⟩ := hin
  · have horder := hs.order
    rw [he, List.pairwise_cons] at horder
    obtain ⟨hsource, hphase⟩ := hs.own e (by simp [he]) htx
    have hno : ∀ f ∈ rest, f.event ≠ .txFinished := fun f hf => (horder.1 f hf htx).1
    have hright : ∀ f ∈ rest, f.event ≠ .statusRight := fun f hf => (horder.1 f hf htx).2.1
    have hsend : ∀ f ∈ rest, f.event ≠ .confirmSend := fun f hf => (horder.1 f hf htx).2.2
    have hfirst : VerdictsFirst rest := h.first.sublist (he ▸ List.sublist_cons_self e rest)
    have hwhole := hs.whole (by simp [hphase])
    have hstop := stopTx_returned env
      ({ app with events := rest }.call (.txFinished e.source app.radio.txCount)) hs.thread hphase
    have hown : Disciplined (.txFinished e.source app.radio.txCount) := hsource
    have hcalls := disciplined_concat h.calls hown
    have hlistener : Listens app.radio none := hs.listener
    have horder' : rest.Pairwise (fun e f => e.event = .statusRight → f.event.isAck = false) := by
      apply List.pairwise_of_forall_mem_list
      intro f hf g _ hfr
      exact absurd hfr (hright f hf)
    simp only [wiFirOnTxFinished, hstop]
    split
    · refine ⟨hcalls, .inr ⟨⟨below, hstack, hnot⟩, .inr (.inr ?_)⟩, hfirst⟩
      exact {
        thread := rfl
        listener := hlistener.keep rfl rfl rfl rfl
        no_tx := hno
        order := horder' }
    rename_i hok
    rw [not_not] at hok
    have hsaved : Disciplined (.save app.radio.txCreds app.radio.aired) := hwhole hok
    have hcalls' := disciplined_concat hcalls hsaved
    split
    · refine ⟨disciplined_concat hcalls' ?_, .inr ⟨⟨below, hstack, hnot⟩,
        .inr (.inl ⟨app.radio.listenerCount + 1, ?_⟩)⟩, hfirst⟩
      · exact ⟨rfl, hlistener.worker, hlistener.timer⟩
      · exact {
          thread := rfl
          listener := ⟨rfl, rfl, congrArg _ hlistener.receiving,
            .inl (congrArg _ (by simpa using hlistener.armed))⟩
          retry := hs.retry
          mode := rfl
          view := hs.view
          no_tx := hno
          no_retry := hright
          no_send := hsend }
    · refine ⟨hcalls', .inr ⟨⟨below, hstack, hnot⟩, .inr (.inr ?_)⟩, hfirst⟩
      exact {
        thread := rfl
        listener := hlistener.keep rfl rfl rfl rfl
        no_tx := hno
        order := horder' }
  · exact absurd htx (hl.no_tx e (by simp [he]))
  · exact absurd htx (hr.no_tx e (by simp [he]))

/-- Every verdict stops its listener and leaves a result on screen. -/
theorem orderly_verdict (h : Orderly app) (hin : Inside app) {e : Posted} {rest : List Posted}
    (he : app.events = e :: rest) (hack : e.event.isAck = true) {app' : WiFirApp} {retry : Bool}
    (hstack' : app'.sceneStack = app.sceneStack) (hevents : app'.events = rest)
    (hradio : app'.radio =
      { (wiFirStopAckListener ({ app with events := rest }.call (.verdict e.source))).radio with
        retryAllowed := retry }) : Orderly app' := by
  obtain ⟨⟨below, hstack, hnot⟩, hbusy⟩ := hin
  have hthread : app.radio.txThread = none ∧
      rest.Pairwise (fun e f => e.event = .statusRight → f.event.isAck = false) ∧
      ∀ f ∈ rest, f.event ≠ .txFinished := by
    rcases hbusy with ⟨t, hs⟩ | ⟨n, hl⟩ | hr
    · exact absurd hack (by simp [hs.no_ack e (by simp [he])])
    · refine ⟨hl.thread, ?_, fun f hf => hl.no_tx f (by simp [he, hf])⟩
      apply List.pairwise_of_forall_mem_list
      intro f hf g _ hfr
      exact absurd hfr (hl.no_retry f (by simp [he, hf]))
    · have horder := hr.order
      rw [he, List.pairwise_cons] at horder
      exact ⟨hr.thread, horder.2, fun f hf => hr.no_tx f (by simp [he, hf])⟩
  obtain ⟨o, hlistener⟩ := hbusy.listens
  have hcalled : Listens ({ app with events := rest }.call (.verdict e.source)).radio o :=
    hlistener.keep rfl rfl rfl rfl
  have hnone := listens_stop _ hcalled
  refine ⟨?_, ?_, hevents ▸ h.first.sublist (he ▸ List.sublist_cons_self e rest)⟩
  · rw [hradio, stopAckListener_eq]
    exact disciplined_concat h.calls trivial
  · refine .inr ⟨⟨below, hstack'.trans hstack, hnot⟩, .inr (.inr ?_)⟩
    exact {
      thread := by
        rw [hradio, stopAckListener_eq]
        exact hthread.1
      listener := by
        rw [hradio]
        exact hnone.keep rfl rfl rfl rfl
      no_tx := hevents ▸ hthread.2.2
      order := hevents ▸ hthread.2.1 }

/-- Handling an event without effect. -/
theorem Orderly.pop (h : Orderly app) {e : Posted} {rest : List Posted} (he : app.events = e :: rest) :
    Orderly { app with events := rest } := by
  have hsub : rest.Sublist app.events := he ▸ List.sublist_cons_self e rest
  refine ⟨h.calls, h.placed.imp (fun hout => hout.keep rfl rfl) fun hin => ⟨hin.stack, ?_⟩,
    h.first.sublist hsub⟩
  exact hin.busy.sublist rfl rfl rfl hsub

theorem Inside.pop (h : Inside app) {e : Posted} {rest : List Posted} (he : app.events = e :: rest) :
    Inside { app with events := rest } :=
  ⟨h.stack, h.busy.sublist rfl rfl rfl (he ▸ List.sublist_cons_self e rest)⟩

/-- A retry finds no verdict of an old listener left in the queue. -/
theorem orderly_right (h : Orderly app) (hin : Inside app) {e : Posted} {rest : List Posted}
    (he : app.events = e :: rest) (hright : e.event = .statusRight)
    (hretry : app.radio.retryAllowed = true) :
    Orderly (wiFirStartTx env { app with events := rest }) := by
  obtain ⟨⟨below, hstack, hnot⟩, ⟨t, hs⟩ | ⟨n, hl⟩ | hr⟩ := hin
  · exact absurd hretry (by simp [hs.retry])
  · exact absurd hretry (by simp [hl.retry])
  · have horder := hr.order
    rw [he, List.pairwise_cons] at horder
    apply orderly_start env { app with events := rest } h.calls hstack hnot hr.thread hr.listener
      (h.pop he).first
    rintro f hf (htx | hack)
    · exact hr.no_tx f (by simp [he, hf]) htx
    · exact absurd hack (by simp [horder.1 f hf hright])

/-- The transmit scene handles any event. -/
theorem orderly_transmitOnEvent (h : Orderly app) (hin : Inside app) {e : Posted} {rest : List Posted}
    (he : app.events = e :: rest) :
    Orderly (wiFirSceneTransmitOnEvent env { app with events := rest } e.source e.event) := by
  cases hevent : e.event with
  | txFinished => exact orderly_txFinished h hin he hevent
  | ackSuccess => exact orderly_verdict h hin he (by rw [hevent]; rfl) rfl rfl rfl
  | ackFail => exact orderly_verdict h hin he (by rw [hevent]; rfl) rfl rfl rfl
  | ackTimeout => exact orderly_verdict h hin he (by rw [hevent]; rfl) rfl rfl rfl
  | statusLeft => exact orderly_dismiss (h.pop he) (hin.pop he)
  | statusOk => exact orderly_dismiss (h.pop he) (hin.pop he)
  | statusRight =>
    simp only [wiFirSceneTransmitOnEvent]
    split
    · rename_i hretry
      exact orderly_right h hin he hevent hretry
    · exact h.pop he
  | _ => exact h.pop he

end Scene

/-! ## The other scenes -/

section Elsewhere
variable {app app' : WiFirApp} (env : Env)

/-- A change that leaves the parties alone and does not enter the transmit scene. -/
structure Aside (app app' : WiFirApp) : Prop where
  radio : app'.radio = app.radio
  stack : .transmit ∉ app'.sceneStack
  events : app'.events = app.events

theorem Orderly.aside (h : Orderly app) (hout : Outside app) (ha : Aside app app') : Orderly app' :=
  ⟨ha.radio ▸ h.calls, .inl ⟨ha.stack, ha.radio ▸ hout.thread, ha.radio ▸ hout.listener⟩,
    ha.events ▸ h.first⟩

theorem nextScene_aside (app : WiFirApp) (hstack : .transmit ∉ app.sceneStack) {next : WiFirScene}
    (hnext : next ≠ .transmit) : Aside app (sceneManagerNextScene env app next) := by
  cases hs : app.sceneStack with
  | nil =>
    obtain ⟨hradio, hscenes, hevents⟩ := sceneOnEnter_keeps env
      { app with sceneStack := next :: app.sceneStack } hnext
    simp only [sceneManagerNextScene, hs] at hradio hscenes hevents ⊢
    refine ⟨hradio, ?_, hevents⟩
    rw [hscenes]
    simpa using hnext.symm
  | cons cur rest =>
    have hcur : cur ≠ .transmit := fun hcur => hstack (by simp [hs, hcur])
    obtain ⟨hradio₁, hscenes₁, hevents₁⟩ := sceneOnExit_keeps env app hcur
    obtain ⟨hradio, hscenes, hevents⟩ := sceneOnEnter_keeps env
      { sceneOnExit env app cur with sceneStack := next :: (sceneOnExit env app cur).sceneStack } hnext
    simp only [sceneManagerNextScene, hs]
    refine ⟨hradio.trans hradio₁, ?_, hevents.trans hevents₁⟩
    rw [hscenes, hscenes₁, List.mem_cons]
    exact not_or.mpr ⟨hnext.symm, hstack⟩

theorem previousScene_aside (app : WiFirApp) (hstack : .transmit ∉ app.sceneStack) :
    Aside app (sceneManagerPreviousScene env app) := by
  rcases hs : app.sceneStack with _ | ⟨cur, _ | ⟨prev, rest⟩⟩
  · simp only [sceneManagerPreviousScene, hs]
    exact ⟨rfl, hstack, rfl⟩
  · have hcur : cur ≠ .transmit := fun hcur => hstack (by simp [hs, hcur])
    obtain ⟨hradio, hscenes, hevents⟩ := sceneOnExit_keeps env { app with sceneStack := [] } hcur
    simp only [sceneManagerPreviousScene, hs]
    exact ⟨hradio, by simp [hscenes], hevents⟩
  · have hcur : cur ≠ .transmit := fun hcur => hstack (by simp [hs, hcur])
    have hprev : prev ≠ .transmit := fun hprev => hstack (by simp [hs, hprev])
    obtain ⟨hradio₁, hscenes₁, hevents₁⟩ := sceneOnExit_keeps env
      { app with sceneStack := prev :: rest } hcur
    obtain ⟨hradio, hscenes, hevents⟩ := sceneOnEnter_keeps env
      (sceneOnExit env { app with sceneStack := prev :: rest } cur) hprev
    simp only [sceneManagerPreviousScene, hs]
    refine ⟨hradio.trans hradio₁, ?_, hevents.trans hevents₁⟩
    rw [hscenes, hscenes₁]
    exact fun hmem => hstack (by rw [hs]; exact List.mem_cons_of_mem _ hmem)

/-- Sending from the confirm scene enters the transmit scene with a new TX. -/
theorem orderly_send (h : Orderly app) (hout : Outside app) (hscene : app.scene = some .confirm)
    (hq : ∀ e ∈ app.events, ¬ e.OfParty) : Orderly (sceneManagerNextScene env app .transmit) := by
  cases hs : app.sceneStack with
  | nil => simp [WiFirApp.scene, hs] at hscene
  | cons cur rest =>
    obtain rfl : cur = .confirm := by simpa [WiFirApp.scene, hs] using hscene
    have hbelow : .transmit ∉ WiFirScene.confirm :: rest := by
      rw [← hs]
      exact hout.stack
    simp only [sceneManagerNextScene, hs]
    exact orderly_start env
      { app with
        dialogCallback := false
        statusCallback := true
        sceneStack := .transmit :: app.sceneStack }
      h.calls (congrArg _ hs) hbelow hout.thread hout.listener h.first hq

theorem orderly_confirmOnEvent (h : Orderly app) (hout : Outside app)
    (hscene : app.scene = some .confirm) {event : WiFirCustomEvent}
    (hq : event = .confirmSend → ∀ e ∈ app.events, ¬ e.OfParty) :
    Orderly (wiFirSceneConfirmOnEvent env app event) := by
  cases event with
  | confirmSend => exact orderly_send env h hout hscene (hq rfl)
  | confirmBack => exact h.aside hout (previousScene_aside env app hout.stack)
  | confirmDelete =>
    simp only [wiFirSceneConfirmOnEvent]
    split
    · exact h.aside hout ⟨rfl, hout.stack, rfl⟩
    · exact h
  | deleteConfirmed =>
    have hdelete : Disciplined (.delete app.selectedSavedFile.bytes) := trivial
    have hcalls := disciplined_concat h.calls hdelete
    have hout' : Outside (app.call (.delete app.selectedSavedFile.bytes)) :=
      ⟨hout.stack, hout.thread, hout.listener.keep rfl rfl rfl rfl⟩
    have h' : Orderly (app.call (.delete app.selectedSavedFile.bytes)) := ⟨hcalls, .inl hout', h.first⟩
    have hgone := previousScene_aside env
      { { app with
          card := (wfrStorageDelete env.removes app.card app.selectedSavedFile.bytes).2 }.call
            (.delete app.selectedSavedFile.bytes) with
        selectedSavedFile := .empty _ } hout.stack
    exact h'.aside hout' ⟨hgone.radio, hgone.stack, hgone.events⟩
  | deleteCancelled => exact h.aside hout ⟨rfl, hout.stack, rfl⟩
  | _ => exact h

variable {env} in
theorem Moves.orderly (hm : Moves env app app') (h : Orderly app) (hout : Outside app) :
    Orderly app' := by
  cases hm with
  | stays hr hs hev => exact h.aside hout ⟨hr, hs ▸ hout.stack, hev⟩
  | goes next hne hr hs hev =>
    have haside := nextScene_aside env _ (hs ▸ hout.stack) hne
    exact h.aside hout ⟨haside.radio.trans hr, haside.stack, haside.events.trans hev⟩

/-- Outside the transmit scene no event but a ConfirmSend reaches a party. -/
theorem orderly_elsewhere (h : Orderly app) (hout : Outside app) {e : Posted} {rest : List Posted}
    (he : app.events = e :: rest)
    (hfresh : app.scene = some .confirm → e.event = .confirmSend → ∀ f ∈ rest, ¬ f.OfParty) :
    Orderly (handleCustom env { app with events := rest } e) := by
  have hpop := h.pop he
  have hout' : Outside { app with events := rest } := hout.keep rfl rfl
  cases hscene : app.scene with
  | none =>
    have hs : WiFirApp.scene { app with events := rest } = none := hscene
    rw [handleCustom, hs]
    exact hpop
  | some s =>
    have hs : WiFirApp.scene { app with events := rest } = some s := hscene
    rw [handleCustom, hs]
    have hedit := editors_move env { app with events := rest } e.event
    cases s with
    | transmit => exact absurd (List.mem_of_mem_head? hscene) hout.stack
    | confirm => exact orderly_confirmOnEvent env hpop hout' hs (hfresh hscene)
    | mainMenu => exact (mainMenu_moves env _ e.event).orderly hpop hout'
    | editSsid => exact hedit.1.orderly hpop hout'
    | editPassword => exact hedit.2.1.orderly hpop hout'
    | editSecurity => exact hedit.2.2.orderly hpop hout'
    | scanNfc => exact (scanNfc_moves env _ e.event).orderly hpop hout'
    | saved => exact (saved_moves env _ e.event).orderly hpop hout'
    | about => exact hpop
    | settings => exact hpop

end Elsewhere

/-! ## Every input -/

section Inputs
variable {app app' : WiFirApp}

theorem Inside.scene (h : Inside app) : app.scene = some .transmit := by
  obtain ⟨⟨below, hstack, -⟩, -⟩ := h
  simp [WiFirApp.scene, hstack]

theorem Outside.scene (h : Outside app) : app.scene ≠ some .transmit :=
  fun hscene => h.stack (List.mem_of_mem_head? hscene)

theorem orderly_custom (env : Env) (h : Orderly app) {e : Posted} {rest : List Posted}
    (he : app.events = e :: rest)
    (hfresh : app.scene = some .confirm → e.event = .confirmSend → ∀ f ∈ rest, ¬ f.OfParty) :
    Orderly (handleCustom env { app with events := rest } e) := by
  rcases h.placed with hout | hin
  · exact orderly_elsewhere env h hout he hfresh
  · have hs : WiFirApp.scene { app with events := rest } = some .transmit := hin.scene
    rw [handleCustom, hs]
    exact orderly_transmitOnEvent h hin he

/-- The countdown runs. -/
theorem orderly_ticks (h : Orderly app) (n : ℕ) : Orderly { app with dismissTicks := n } := by
  refine ⟨h.calls, h.placed.imp (fun hout => hout.keep rfl rfl) fun hin => ⟨hin.stack, ?_⟩, h.first⟩
  exact hin.busy.sublist rfl rfl rfl (List.Sublist.refl _)

theorem orderly_tick (env : Env) (h : Orderly app) : Orderly (handleTick env app) := by
  simp only [handleTick]
  split
  · rename_i hscene
    split
    · exact h
    have hticks := orderly_ticks h (app.dismissTicks - 1)
    split
    · apply orderly_dismiss hticks
      exact hticks.placed.resolve_left fun hout => hout.scene hscene
    · exact hticks
  · rename_i hscene
    have hout : Outside app := h.placed.resolve_right fun hin => by simp [hin.scene] at hscene
    split
    · exact h
    split
    · exact h.aside hout ⟨rfl, hout.stack, rfl⟩
    · exact h.aside hout ⟨rfl, hout.stack, rfl⟩
  · exact h

theorem orderly_back (env : Env) (h : Orderly app) : Orderly (handleBack env app) := by
  simp only [handleBack]
  split
  · rename_i hscene
    exact orderly_dismiss h (h.placed.resolve_left fun hout => hout.scene hscene)
  · rename_i hscene
    have hout : Outside app := h.placed.resolve_right fun hin => hscene hin.scene
    exact h.aside hout (previousScene_aside env app hout.stack)

/-- A key of any view, or the NFC poller. -/
theorem orderly_append (h : Orderly app) {f : Posted} (hr : app'.radio = app.radio)
    (hs : app'.sceneStack = app.sceneStack) (hm : app'.status = app.status) (hv : app'.view = app.view)
    (hev : app'.events = app.events ++ [f]) (hf : ¬ f.OfParty)
    (hk : f.event = .statusRight → app.status.takesKeys = true)
    (hsend : f.event = .confirmSend → app.view = .confirm) : Orderly app' := by
  refine ⟨hr ▸ h.calls, h.placed.imp (fun hout => hout.keep hr hs) fun hin => ⟨hs ▸ hin.stack, ?_⟩,
    hev ▸ h.first.append (Posted.not_ofParty hf).2⟩
  exact hin.busy.append hr hm hv hev hf hk hsend

/-- A setting of the working set. -/
theorem orderly_edit (h : Orderly app) (hr : app'.radio = app.radio)
    (hs : app'.sceneStack = app.sceneStack) (hm : app'.status = app.status) (hv : app'.view = app.view)
    (hev : app'.events = app.events) : Orderly app' := by
  refine ⟨hr ▸ h.calls, h.placed.imp (fun hout => hout.keep hr hs) fun hin => ⟨hs ▸ hin.stack, ?_⟩,
    hev ▸ h.first⟩
  exact hin.busy.sublist hr (by rw [hm]) hv (hev ▸ List.Sublist.refl _)

/-! ## The TX worker and the ACK listener -/

theorem sending_of_thread (h : Orderly app) {t : TxThread} (ht : app.radio.txThread = some t) :
    (∃ below, app.sceneStack = .transmit :: below ∧ .transmit ∉ below) ∧ Sending app t := by
  rcases h.placed with hout | ⟨hstack, ⟨t', hs⟩ | ⟨n, hl⟩ | hr⟩
  · exact absurd ht (by simp [hout.thread])
  · have hsame := hs.thread
    rw [ht, Option.some.injEq] at hsame
    exact ⟨hstack, hsame ▸ hs⟩
  · exact absurd ht (by simp [hl.thread])
  · exact absurd ht (by simp [hr.thread])

/-- A transmission that returns true has put all its messages on the air. -/
theorem transmitted_whole {r : Radio} {t : TxThread} {progress : UInt16 → UInt16 → Bool}
    {wifiStr : Vector UInt8 (wfrMaxTotalPayload + 1)}
    (h : (transmitted r t progress wifiStr).2 = true) :
    WholeSend r.txCreds (transmitted r t progress wifiStr).1 := by
  rcases wfrTransmitCredentials_cases r.txCreds t.protocol (some progress) wifiStr with
    ⟨-, hsent | ⟨k, hsent⟩⟩ | ⟨-, hsent⟩
  · simp [transmitted, hsent] at h
  · simp [transmitted, hsent] at h
  · refine ⟨t.protocol, ?_⟩
    rw [transmitted, hsent]

/-- Before it returns the worker has posted nothing. -/
theorem Sending.not_posted {t : TxThread} (h : Sending app t) (hphase : t.phase ≠ .returned) :
    ∀ e ∈ app.events, e.event ≠ .txFinished := fun e he htx => hphase (h.own e he htx).2

theorem orderly_txProgress (h : Orderly app) {sent total : UInt16} {t : TxThread}
    (ht : app.radio.txThread = some t) : Orderly (wiFirTxProgress app sent total) := by
  obtain ⟨hstack, hs⟩ := sending_of_thread h ht
  refine ⟨h.calls, .inr ⟨hstack, .inl ⟨t, ?_⟩⟩, h.first⟩
  exact { hs with mode := rfl }

/-- The worker moves on without posting. -/
theorem orderly_phase (h : Orderly app) {t : TxThread} (ht : app.radio.txThread = some t)
    (hphase : t.phase ≠ .returned) {phase : TxPhase} (hs' : app'.sceneStack = app.sceneStack)
    (hm : app'.status = app.status) (hv : app'.view = app.view) (hev : app'.events = app.events)
    {aired : List TxMessage} {ok : Bool}
    (hr : app'.radio = { app.radio with
      txThread := some { t with phase := phase }
      aired := aired
      txOk := ok })
    (hwhole : ok = true → WholeSend app.radio.txCreds aired) : Orderly app' := by
  obtain ⟨hstack, hs⟩ := sending_of_thread h ht
  have hl := hs.listener
  refine ⟨hr ▸ h.calls, .inr ⟨hs' ▸ hstack, .inl ⟨{ t with phase := phase }, ?_⟩⟩, hev ▸ h.first⟩
  exact {
    thread := by rw [hr]
    number := by
      rw [hr]
      exact hs.number
    listener := by
      rw [hr]
      exact hl.keep rfl rfl rfl rfl
    retry := by
      rw [hr]
      exact hs.retry
    mode := hm ▸ hs.mode
    view := hv.trans hs.view
    no_ack := hev ▸ hs.no_ack
    own := fun e he htx => absurd htx (hs.not_posted hphase e (hev ▸ he))
    order := hev ▸ hs.order
    whole := by
      rw [hr]
      exact fun _ => hwhole }

theorem orderly_txDone (h : Orderly app) {wifiStr : Vector UInt8 (wfrMaxTotalPayload + 1)}
    {t : TxThread} (ht : app.radio.txThread = some t) (hphase : t.phase = .sending) :
    Orderly (txDone wifiStr t app) :=
  orderly_phase h ht (by simp [hphase]) rfl rfl rfl rfl rfl transmitted_whole

theorem orderly_txCheck (h : Orderly app) {t : TxThread} (ht : app.radio.txThread = some t)
    (hphase : t.phase = .sent) :
    Orderly (setPhase t (if app.radio.txCancel then .returned else .posting) app) := by
  have hwhole := (sending_of_thread h ht).2.whole (by simp [hphase])
  exact orderly_phase h ht (by simp [hphase]) rfl rfl rfl rfl rfl hwhole

theorem orderly_txPost (h : Orderly app) {t : TxThread} (ht : app.radio.txThread = some t)
    (hphase : t.phase = .posting) :
    Orderly (setPhase t .returned (app.post .txFinished t.number)) := by
  obtain ⟨hstack, hs⟩ := sending_of_thread h ht
  have hnone := hs.not_posted (by simp [hphase])
  refine ⟨h.calls, .inr ⟨hstack, .inl ⟨{ t with phase := .returned }, ?_⟩⟩, h.first.append rfl⟩
  exact {
    thread := rfl
    number := hs.number
    listener := hs.listener.keep rfl rfl rfl rfl
    retry := hs.retry
    mode := hs.mode
    view := hs.view
    no_ack := by
      intro e he
      rcases List.mem_append.mp he with he | he
      · exact hs.no_ack e he
      · rw [List.mem_singleton.mp he]
        rfl
    own := by
      intro e he htx
      rcases List.mem_append.mp he with he | he
      · exact absurd htx (hnone e he)
      · rw [List.mem_singleton.mp he]
        exact ⟨hs.number, rfl⟩
    order := by
      change (app.events ++ [_]).Pairwise _
      rw [List.pairwise_append]
      exact ⟨hs.order, List.pairwise_singleton _ _, fun e he f _ htx => absurd htx (hnone e he)⟩
    whole := fun _ => hs.whole (by simp [hphase]) }

/-- The listener posts verdicts only. -/
theorem orderly_listener (h : Orderly app) {dec : WfrAckDecoder} {text : CString 63} {armed : List ℕ}
    {fs : List Posted}
    (hr : app'.radio = { app.radio with
      ackDecoder := dec
      ackResultText := text
      armed := armed })
    (hs : app'.sceneStack = app.sceneStack) (hm : app'.status = app.status) (hv : app'.view = app.view)
    (hev : app'.events = app.events ++ fs) (harm : armed = app.radio.armed ∨ armed = [])
    (hfs : ∀ f ∈ fs, f.event.isAck = true) (halive : app.radio.receiving ≠ [] ∨ app.radio.armed ≠ []) :
    Orderly app' := by
  have hnone (hl : Listens app.radio none) : False := by
    rcases halive with halive | halive
    · exact halive hl.receiving
    · exact halive (hl.armed.elim id id)
  rcases h.placed with hout | ⟨hstack, ⟨t, hsend⟩ | ⟨n, hl⟩ | hrest⟩
  · exact (hnone hout.listener).elim
  · exact (hnone hsend.listener).elim
  · have hl' := hl.listener
    have hnosend : ∀ e ∈ app'.events, e.event ≠ .confirmSend := by
      rw [hev]
      intro e he hsend
      rcases List.mem_append.mp he with he | he
      · exact hl.no_send e he hsend
      · exact absurd (hfs e he) (by simp [hsend, WiFirCustomEvent.isAck])
    refine ⟨hr ▸ h.calls, .inr ⟨hs ▸ hstack, .inr (.inl ⟨n, ?_⟩)⟩,
      List.pairwise_of_forall_mem_list fun e he _ _ hsend => absurd hsend (hnosend e he)⟩
    exact {
      thread := by
        rw [hr]
        exact hl.thread
      listener := by
        rw [hr]
        exact ⟨hl'.worker, hl'.timer, hl'.receiving, harm.elim (fun harm => harm ▸ hl'.armed) .inr⟩
      retry := by
        rw [hr]
        exact hl.retry
      mode := hm ▸ hl.mode
      view := hv.trans hl.view
      no_send := hnosend
      no_tx := by
        rw [hev]
        intro e he htx
        rcases List.mem_append.mp he with he | he
        · exact hl.no_tx e he htx
        · exact absurd (hfs e he) (by simp [htx, WiFirCustomEvent.isAck])
      no_retry := by
        rw [hev]
        intro e he hright
        rcases List.mem_append.mp he with he | he
        · exact hl.no_retry e he hright
        · exact absurd (hfs e he) (by simp [hright, WiFirCustomEvent.isAck]) }
  · exact (hnone hrest.listener).elim

theorem orderly_signal (h : Orderly app) {worker : ℕ} (hmem : worker ∈ app.radio.receiving)
    (s : Reception) : Orderly (wiFirIrRxCallback app worker s) := by
  refine orderly_listener h rfl rfl rfl rfl rfl (.inl rfl) ?_ (.inl (List.ne_nil_of_mem hmem))
  intro f hf
  obtain ⟨e, -, rfl⟩ := List.mem_map.mp hf
  cases e <;> rfl

theorem orderly_timeout (h : Orderly app) {timer : ℕ} (hmem : timer ∈ app.radio.armed) :
    Orderly (wiFirAckTimeoutCallback
      { app with radio := { app.radio with armed := app.radio.armed.filter (· ≠ timer) } } timer) := by
  have hempty : app.radio.armed.filter (· ≠ timer) = [] := by
    have hone : ∃ n, app.radio.armed = [n] := by
      have hor (o : Option ℕ) (hl : Listens app.radio o) : ∃ n, app.radio.armed = [n] := by
        rcases hl.armed with harm | harm
        · cases o with
          | none => simp [harm] at hmem
          | some n => exact ⟨n, harm⟩
        · simp [harm] at hmem
      rcases h.placed with hout | hin
      · exact hor none hout.listener
      · obtain ⟨o, hl⟩ := hin.busy.listens
        exact hor o hl
    obtain ⟨n, hn⟩ := hone
    rw [hn, List.mem_singleton] at hmem
    simp [hn, hmem]
  refine orderly_listener h rfl rfl rfl rfl rfl (.inr hempty) ?_ (.inr (List.ne_nil_of_mem hmem))
  intro f hf
  rw [List.mem_singleton.mp hf]
  rfl

theorem orderly_step {i : Input} (h : Orderly app) (hfresh : FreshStart app i)
    (hstep : step app i = some app') : Orderly app' := by
  cases happens_of_step hstep with
  | custom env he =>
    simp only [FreshStart, he] at hfresh
    have hfirst := h.first
    rw [he, VerdictsFirst, List.pairwise_cons] at hfirst
    refine orderly_custom env h he fun hscene hsend f hf => ?_
    rw [Posted.OfParty, not_or, Bool.not_eq_true]
    exact ⟨hfresh hscene hsend f hf, hfirst.1 f hf hsend⟩
  | back env => exact orderly_back env h
  | tick env => exact orderly_tick env h
  | posts f hr hs hm hev hparty hkeys hv hsend => exact orderly_append h hr hs hm hv hev hparty hkeys hsend
  | edits hr hs hm hev hv => exact orderly_edit h hr hs hm hv hev
  | txProgress sent total ht hphase => exact orderly_txProgress h ht
  | txDone wifiStr ht hphase => exact orderly_txDone h ht hphase
  | txCheck ht hphase => exact orderly_txCheck h ht hphase
  | txPost ht hphase => exact orderly_txPost h ht hphase
  | signal hmem s => exact orderly_signal h hmem s
  | timeout hmem => exact orderly_timeout h hmem

end Inputs

theorem orderly_launched (card : Card) (ackEnabled : Bool) (irProtocol : WfrIrProtocol) :
    Orderly (launched card ackEnabled irProtocol) :=
  ⟨by simp [launched], .inl ⟨by simp [launched], rfl, rfl, rfl, rfl, .inl rfl⟩, .nil⟩

/-- In every run that starts a TX from the confirm scene only with no TxFinished of an earlier one
queued, the calls are disciplined and a TX thread and an ACK listener never live together. -/
theorem transmit_disciplined (card : Card) (ackEnabled : Bool) (irProtocol : WfrIrProtocol)
    (app : WiFirApp) (h : Reach step FreshStart (launched card ackEnabled irProtocol) app) :
    (∀ c ∈ app.radio.calls, Disciplined c) ∧
      (app.radio.txThread ≠ none → app.radio.irWorker = none ∧ app.radio.ackTimer = none ∧
        app.radio.receiving = [] ∧ app.radio.armed = []) := by
  have hord : Orderly app := h.invariant (orderly_launched card ackEnabled irProtocol)
    fun _ _ _ horderly hfresh hstep => orderly_step horderly hfresh hstep
  refine ⟨hord.calls, fun hthread => ?_⟩
  obtain ⟨t, ht⟩ := Option.ne_none_iff_exists'.mp hthread
  have hl := (sending_of_thread hord ht).2.listener
  exact ⟨hl.worker, hl.timer, hl.receiving, hl.armed.elim id id⟩

def dock : WfrWifiCreds :=
  ⟨.ofBytes _ (ascii "dock"), .ofBytes _ (ascii "letmein1"), wfrSecWpa, false⟩

/-- A card with one saved network. -/
def dockCard : Card := fun path =>
  if path = savePath (ascii "dock") then some (savedLines dock) else none

def calm : Env where
  late _ _ := false
  redraw := none
  wifiStr := Vector.replicate _ 0
  writes _ := true
  removes := true
  names := [ascii "dock.wfir"]

def handle : Input := .custom calm

def wholeTx : List Input := [.txDone (Vector.replicate _ 0), .txCheck, .txPost]

/-- A send that gets no reply, a retry that is left while it waits, and a second visit. -/
private def twoVisits : List Input :=
  [.menuOk 2, handle, .listOk 0, handle, .confirmKey .right, handle] ++ wholeTx ++
    [handle, .timeout 1, handle, .statusKey .right, handle] ++ wholeTx ++ [handle, .back calm] ++
    [.menuOk 2, handle, .listOk 0, handle, .confirmKey .right, handle] ++ wholeTx ++ [handle]

theorem transmit_disciplined_twoVisits :
    ∃ app, Reach step FreshStart (launched dockCard true .rc6) app ∧
      (∀ c ∈ app.radio.calls, Disciplined c) ∧
      (app.radio.txThread ≠ none → app.radio.irWorker = none ∧ app.radio.ackTimer = none ∧
        app.radio.receiving = [] ∧ app.radio.armed = []) := by
  have hsome : (runAll (fun s i => if FreshStart s i then step s i else none)
      (launched dockCard true .rc6) twoVisits).isSome = true := by decide +kernel
  obtain ⟨app, happ⟩ := Option.isSome_iff_exists.mp hsome
  have hreach := Reach.of_runAll happ
  exact ⟨app, hreach, transmit_disciplined dockCard true .rc6 app hreach⟩

/-- Keys that are handled late: two rounds of menu, list and confirm keys are queued when the first
round reaches the transmit scene, where the first TX finishes behind them. -/
private def lateKeys : List Input :=
  [.menuOk 2, .menuOk 2, handle, .listOk 0, .back calm, .menuOk 2, handle, .listOk 0, handle,
    .confirmKey .right, .back calm, .back calm, .menuOk 2, handle, .listOk 0, handle,
    .confirmKey .right, handle] ++ wholeTx ++ [.back calm, handle, handle, handle, handle]

/-- The second TX is running when the TxFinished of the first one is handled. -/
theorem stale_txFinished :
    ∃ app, Reach step (fun _ _ => True) (launched dockCard true .rc6) app ∧
      Call.txFinished 1 2 ∈ app.radio.calls ∧ ¬ ∀ c ∈ app.radio.calls, Disciplined c := by
  have hrun : ((runAll (fun s i => if True then step s i else none) (launched dockCard true .rc6)
      lateKeys).map (fun app => decide (Call.txFinished 1 2 ∈ app.radio.calls))) = some true := by
    decide +kernel
  obtain ⟨app, happ, hstale⟩ := Option.map_eq_some_iff.mp hrun
  rw [decide_eq_true_eq] at hstale
  have hbad : ¬ Disciplined (.txFinished 1 2) := by
    change ¬ (1 : ℕ) = 2
    decide
  exact ⟨app, .of_runAll happ, hstale, fun h => hbad (h _ hstale)⟩

end InfraFi.Flipper.Gui
