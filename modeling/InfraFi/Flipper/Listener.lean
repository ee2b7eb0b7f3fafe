import InfraFi.Flipper.Carried
import InfraFi.Flipper.Shown

/-! # What a listener has heard

The decoder belongs to the application, and a listener that is started clears
it. Events of an earlier listener may still be queued by then; they carry its
number.
-/
namespace InfraFi.Flipper.Gui
open Base Protocol

/-- The part of the application that listens. -/
structure Ear where
  decoder : WfrAckDecoder
  text : CString 63
  count : ℕ
  worker : Option ℕ
  receiving : List ℕ
  posts : List Posted

def WiFirApp.ear (app : WiFirApp) : Ear where
  decoder := app.radio.ackDecoder
  text := app.radio.ackResultText
  count := app.radio.listenerCount
  worker := app.radio.irWorker
  receiving := app.radio.receiving
  posts := app.events

/-- Nothing is heard, and no listener is started. -/
structure Deaf (b b' : Ear) : Prop where
  decoder : b'.decoder = b.decoder
  text : b'.text = b.text
  count : b'.count = b.count
  worker : b'.worker = b.worker ∨ b'.worker = none
  receiving : ∀ n ∈ b'.receiving, n ∈ b.receiving
  posts : ∀ e ∈ b'.posts, e ∈ b.posts ∨ ∀ v, e.event ≠ ackEvent v

/-- A listener is started. -/
structure Opens (b b' : Ear) : Prop where
  decoder : b'.decoder = wfrAckDecodeInit ackTimeoutTicks
  text : b'.text = .empty _
  count : b'.count = b.count + 1
  worker : b'.worker = some b'.count
  receiving : ∀ n ∈ b'.receiving, n = b'.count ∨ n ∈ b.receiving
  posts : ∀ e ∈ b'.posts, e ∈ b.posts ∨ ∀ v, e.event ≠ ackEvent v

/-- The signal that a worker receives. -/
def Input.signal? : Input → Option Reception
  | .signal _ s => some s
  | _ => none

/-- What a step comes to for the ear. -/
inductive Hears (app : WiFirApp) : Input → WiFirApp → Prop
  | nothing {i : Input} {app' : WiFirApp} (hi : i.signal? = none) (h : Deaf app.ear app'.ear) :
      Hears app i app'
  | opens {i : Input} {app' : WiFirApp} (h : Opens app.ear app'.ear) : Hears app i app'
  | signal {worker : ℕ} (hmem : worker ∈ app.radio.receiving) (s : Reception) :
      Hears app (.signal worker s) (wiFirIrRxCallback app worker s)

/-! ## Steps that hear nothing -/

section Deafness
variable {env : Env} {app app' : WiFirApp} {b b' : Ear}

theorem Deaf.refl (b : Ear) : Deaf b b :=
  ⟨rfl, rfl, rfl, .inl rfl, fun _ hn => hn, fun _ he => .inl he⟩

theorem Deaf.trans {b'' : Ear} (h : Deaf b b') (h' : Deaf b' b'') : Deaf b b'' := by
  refine ⟨h'.decoder.trans h.decoder, h'.text.trans h.text, h'.count.trans h.count, ?_,
    fun n hn => h.receiving n (h'.receiving n hn), fun e he => ?_⟩
  · rcases h'.worker with hsame | hnone
    · rw [hsame]
      exact h.worker
    · exact .inr hnone
  · rcases h'.posts e he with hbefore | hother
    · exact h.posts e hbefore
    · exact .inr hother

/-- One more event that is no verdict. -/
theorem deaf_post (app : WiFirApp) {event : WiFirCustomEvent} (source : ℕ)
    (hevent : ∀ v, event ≠ ackEvent v) : Deaf app.ear (app.post event source).ear := by
  refine ⟨rfl, rfl, rfl, .inl rfl, fun _ hn => hn, fun e he => ?_⟩
  rcases List.mem_append.mp he with hbefore | hnew
  · exact .inl hbefore
  · rw [List.mem_singleton.mp hnew]
    exact .inr hevent

theorem deaf_stopAckListener (app : WiFirApp) : Deaf app.ear (wiFirStopAckListener app).ear := by
  rw [stopAckListener_eq]
  exact ⟨rfl, rfl, rfl, .inr rfl, fun _ hn => (List.mem_filter.mp hn).1, fun _ he => .inl he⟩

theorem deaf_stopTx (env : Env) (app : WiFirApp) : Deaf app.ear (wiFirStopTx env app).ear := by
  cases ht : app.radio.txThread with
  | none =>
    rw [stopTx_of_none ht]
    exact .refl _
  | some t =>
    rw [wiFirStopTx, ht]
    rcases t with ⟨number, protocol, phase⟩
    cases phase with
    | sending =>
      rcases env with ⟨late, redraw, wifiStr, writes, removes, names⟩
      rcases redraw with _ | ⟨sent, total⟩ <;> exact .refl _
    | posting =>
      exact deaf_post { app with radio := { app.radio with txCancel := true } } number fun v => by
        cases v <;> decide
    | _ => exact .refl _

theorem deaf_startTx (env : Env) (app : WiFirApp) : Deaf app.ear (wiFirStartTx env app).ear :=
  (deaf_stopAckListener app).trans (deaf_stopTx env _)

theorem deaf_enter (env : Env) (app : WiFirApp) (s : WiFirScene) :
    Deaf app.ear (sceneOnEnter env app s).ear := by
  cases s with
  | transmit => exact deaf_startTx env { app with statusCallback := true }
  | _ => exact .refl _

theorem deaf_exit (env : Env) (app : WiFirApp) (s : WiFirScene) :
    Deaf app.ear (sceneOnExit env app s).ear := by
  cases s with
  | transmit => exact (deaf_stopTx env app).trans (deaf_stopAckListener _)
  | _ => exact .refl _

theorem carried_deaf (env : Env) : Carried env (fun app app' => Deaf app.ear app'.ear) where
  refl _ := .refl _
  trans := .trans
  enter := deaf_enter env
  exit := deaf_exit env
  stack _ _ := .refl _
  edit _ _ _ _ _ _ := .refl _
  draw _ _ _ _ _ _ := .refl _

end Deafness

/-! ## Every step -/

section Steps
variable {env : Env} {app app' : WiFirApp} {i : Input} {b b' : Ear}

theorem opens_startAckListener (app : WiFirApp) : Opens app.ear (wiFirStartAckListener app).ear :=
  ⟨rfl, rfl, rfl, rfl, fun _ hn => List.mem_cons.mp hn, fun _ he => .inl he⟩

theorem Deaf.opens {b'' : Ear} (h : Deaf b b') (h' : Opens b' b'') : Opens b b'' := by
  refine ⟨h'.decoder, h'.text, h'.count.trans (congrArg (· + 1) h.count), h'.worker, fun n hn => ?_,
    fun e he => ?_⟩
  · exact (h'.receiving n hn).imp_right (h.receiving n)
  · rcases h'.posts e he with hbefore | hother
    · exact h.posts e hbefore
    · exact .inr hother

theorem hears_txFinished (env : Env) (app : WiFirApp) (source : ℕ) :
    Deaf app.ear (wiFirOnTxFinished env source app).ear ∨
      Opens app.ear (wiFirOnTxFinished env source app).ear := by
  have hstop : Deaf app.ear (wiFirStopTx env (app.call (.txFinished source app.radio.txCount))).ear :=
    deaf_stopTx env (app.call (.txFinished source app.radio.txCount))
  simp only [wiFirOnTxFinished]
  generalize wiFirStopTx env (app.call (.txFinished source app.radio.txCount)) = stopped at hstop
  split
  · exact .inl hstop
  · split
    · exact .inr (hstop.opens (opens_startAckListener
        ({ stopped with card := (wfrStorageSave env.writes stopped.card stopped.radio.txCreds).2 }.call
          (.save stopped.radio.txCreds stopped.radio.aired))))
    · exact .inl hstop

theorem hears_transmitOnEvent (env : Env) (app : WiFirApp) (source : ℕ) (event : WiFirCustomEvent) :
    Deaf app.ear (wiFirSceneTransmitOnEvent env app source event).ear ∨
      Opens app.ear (wiFirSceneTransmitOnEvent env app source event).ear := by
  cases event with
  | txFinished => exact hears_txFinished env app source
  | ackSuccess | ackFail | ackTimeout =>
    exact .inl (deaf_stopAckListener (app.call (.verdict source)))
  | statusLeft | statusOk => exact .inl ((carried_deaf env).dismiss app)
  | statusRight =>
    rw [wiFirSceneTransmitOnEvent]
    split
    · exact .inl (deaf_startTx env app)
    · exact .inl (.refl _)
  | _ => exact .inl (.refl _)

theorem hears_custom (env : Env) (app : WiFirApp) (e : Posted) :
    Deaf app.ear (handleCustom env app e).ear ∨ Opens app.ear (handleCustom env app e).ear := by
  have hcarried := carried_deaf env
  by_cases hconfirm : app.scene = some .confirm
  · rw [handleCustom, hconfirm]
    by_cases hevent : e.event = .deleteConfirmed
    · rw [hevent]
      exact .inl (hcarried.previous { { app with
        card := (wfrStorageDelete env.removes app.card app.selectedSavedFile.bytes).2 }.call
          (.delete app.selectedSavedFile.bytes) with selectedSavedFile := .empty _ })
    · exact .inl (hcarried.confirmOnEvent app hevent)
  by_cases htransmit : app.scene = some .transmit
  · rw [handleCustom, htransmit]
    exact hears_transmitOnEvent env app e.source e.event
  · exact .inl (hcarried.elsewhere app e hconfirm htransmit)

/-- The event that is handled is no longer queued. -/
theorem deaf_pop {e : Posted} {rest : List Posted} (he : app.events = e :: rest) :
    Deaf app.ear (WiFirApp.ear { app with events := rest }) := by
  refine ⟨rfl, rfl, rfl, .inl rfl, fun _ hn => hn, fun f hf => .inl ?_⟩
  change f ∈ app.events
  rw [he]
  exact List.mem_cons_of_mem e hf

theorem deaf_posts {f : Posted} (hr : app'.radio = app.radio) (hev : app'.events = app.events ++ [f])
    (hparty : ¬ f.OfParty) : Deaf app.ear app'.ear := by
  have hear : app'.ear = { app.ear with posts := app.events ++ [f] } := by
    rw [WiFirApp.ear, hr, hev]
    rfl
  rw [hear]
  exact deaf_post app f.source fun v hv => hparty (.inr (by rw [hv]; cases v <;> rfl))

theorem hears_signal {worker : ℕ} {s : Reception} (hstep : step app (.signal worker s) = some app') :
    Hears app (.signal worker s) app' := by
  rw [step] at hstep
  split at hstep
  · cases hstep
  simp only [perform, Option.ite_none_right_eq_some, Option.some.injEq] at hstep
  obtain ⟨hmem, rfl⟩ := hstep
  exact .signal hmem s

theorem hears_of_step (hstep : step app i = some app') : Hears app i app' := by
  by_cases hi : i.signal? = none
  · cases happens_of_step hstep with
    | @custom env e rest he =>
      rcases hears_custom env { app with events := rest } e with hdeaf | hopens
      · exact .nothing hi ((deaf_pop he).trans hdeaf)
      · exact .opens ((deaf_pop he).opens hopens)
    | back env => exact .nothing hi ((carried_deaf env).back app)
    | tick env => exact .nothing hi ((carried_deaf env).tick app)
    | posts f hr _ _ hev hparty => exact .nothing hi (deaf_posts hr hev hparty)
    | edits hr _ _ hev =>
      have hear : app'.ear = app.ear := by
        rw [WiFirApp.ear, hr, hev]
        rfl
      exact .nothing hi (hear ▸ .refl _)
    | txProgress | txDone | txCheck => exact .nothing hi (.refl _)
    | txPost => exact .nothing hi (deaf_post app _ fun v => by cases v <;> decide)
    | signal => cases hi
    | timeout => exact .nothing hi (deaf_post
        { app with radio := { app.radio with armed := app.radio.armed.filter (· ≠ _) } } _
        fun v => by cases v <;> decide)
  · cases i with
    | signal worker s => exact hears_signal hstep
    | _ => exact absurd rfl hi

end Steps

/-! ## Every run -/

/-- The signals since the last start of a listener. -/
def earAfter (app app' : WiFirApp) (i : Input) (ear : List Reception) : List Reception :=
  if app'.radio.listenerCount = app.radio.listenerCount then ear ++ i.signal?.toList else []

/-- The application on its device, with these signals. -/
abbrev Overheard := Watched × List Reception

def earStep (s : Overheard) (d : DeviceInput) : Option Overheard :=
  (deviceStep s.1 d).map (fun s' => (s', match d with
    | .input i _ => earAfter s.1.1 s'.1 i s.2
    | .start => []))

/-- What the listener makes of signals from its start on. -/
def listenTo (ear : List Reception) : Flipper.WiFirApp :=
  receiveAll ackTimeoutTicks (Flipper.wiFirStartAckListener ackTimeoutTicks) ear

/-- The decoder and the text are those of the signals since the last start, and so are the verdicts that
are queued under the number of the last listener. -/
structure Heard (app : WiFirApp) (ear : List Reception) : Prop where
  decoder : app.radio.ackDecoder = (listenTo ear).ackDecoder
  text : app.radio.ackResultText = (listenTo ear).ackResultText
  worker : ∀ n, app.radio.irWorker = some n → n = app.radio.listenerCount
  receiving : ∀ n ∈ app.radio.receiving, n ≤ app.radio.listenerCount
  posts : ∀ e ∈ app.events, ∀ v, e.event = ackEvent v → e.source ≤ app.radio.listenerCount ∧
    (e.source = app.radio.listenerCount → v ∈ (listenTo ear).events)

section Runs
variable {app app' : WiFirApp} {i : Input} {o : Option Origin} {ear : List Reception}

theorem Heard.deaf (h : Heard app ear) (hdeaf : Deaf app.ear app'.ear) : Heard app' ear := by
  have hcount : app'.radio.listenerCount = app.radio.listenerCount := hdeaf.count
  refine ⟨hdeaf.decoder.trans h.decoder, hdeaf.text.trans h.text, fun n hn => ?_, fun n hn => ?_,
    fun e he v hv => ?_⟩
  · rw [hcount]
    rcases hdeaf.worker with hsame | hnone
    · exact h.worker n (hsame.symm.trans hn)
    · exact absurd (hnone.symm.trans hn) (by simp)
  · rw [hcount]
    exact h.receiving n (hdeaf.receiving n hn)
  · rw [hcount]
    rcases hdeaf.posts e he with hbefore | hother
    · exact h.posts e hbefore v hv
    · exact absurd hv (hother v)

theorem Heard.opens (h : Heard app ear) (hopens : Opens app.ear app'.ear) : Heard app' [] := by
  have hcount : app'.radio.listenerCount = app.radio.listenerCount + 1 := hopens.count
  refine ⟨hopens.decoder, hopens.text, fun n hn => ?_, fun n hn => ?_, fun e he v hv => ?_⟩
  · exact Option.some.inj (hn.symm.trans hopens.worker)
  · rcases hopens.receiving n hn with rfl | hbefore
    · exact Nat.le_refl _
    · have hle := h.receiving n hbefore
      omega
  · rcases hopens.posts e he with hbefore | hother
    · have hle := (h.posts e hbefore v hv).1
      exact ⟨by omega, fun hlast => by omega⟩
    · exact absurd hv (hother v)

/-- The callback only adds to the events. -/
theorem callback_events (app : Flipper.WiFirApp) (s : Reception) :
    Flipper.wiFirIrRxCallback ackTimeoutTicks app s =
      let r := Flipper.wiFirIrRxCallback ackTimeoutTicks { app with events := [] } s
      { r with events := app.events ++ r.events } := by
  simp only [Flipper.wiFirIrRxCallback]
  split
  · simp
  · split
    · simp
    · simp only [onAckResult]
      split
      · split <;> simp
      · simp

theorem ackEvent_injective : Function.Injective ackEvent := by
  intro v w h
  cases v <;> cases w <;> first | rfl | cases h

theorem Heard.signal (h : Heard app ear) {worker : ℕ} (hmem : worker ∈ app.radio.receiving)
    (s : Reception) : Heard (wiFirIrRxCallback app worker s) (ear ++ [s]) := by
  have hnext : listenTo (ear ++ [s]) = Flipper.wiFirIrRxCallback ackTimeoutTicks (listenTo ear) s :=
    List.foldl_concat _ _ _ _
  have hframe := callback_events (listenTo ear) s
  rw [← hnext, ← h.decoder, ← h.text] at hframe
  refine ⟨?_, ?_, h.worker, h.receiving, fun e he v hv => ?_⟩
  · rw [hframe]
    rfl
  · rw [hframe]
    rfl
  · rw [hframe]
    rcases List.mem_append.mp he with hbefore | hnew
    · obtain ⟨hle, hin⟩ := h.posts e hbefore v hv
      exact ⟨hle, fun hlast => List.mem_append_left _ (hin hlast)⟩
    · obtain ⟨w, hw, rfl⟩ := List.mem_map.mp hnew
      obtain rfl := ackEvent_injective hv
      exact ⟨h.receiving worker hmem, fun _ => List.mem_append_right _ hw⟩

theorem Heard.step (h : Heard app ear) (hstep : Gui.step app i = some app') :
    Heard app' (earAfter app app' i ear) := by
  cases hears_of_step hstep with
  | nothing hi hdeaf =>
    have hcount : app'.radio.listenerCount = app.radio.listenerCount := hdeaf.count
    rw [earAfter, if_pos hcount, hi, Option.toList_none, List.append_nil]
    exact h.deaf hdeaf
  | opens hopens =>
    have hcount : app'.radio.listenerCount = app.radio.listenerCount + 1 := hopens.count
    rw [earAfter, if_neg (by omega)]
    exact h.opens hopens
  | @signal worker hmem s =>
    have hcount : (wiFirIrRxCallback app worker s).radio.listenerCount = app.radio.listenerCount := rfl
    rw [earAfter, if_pos hcount]
    exact h.signal hmem s

theorem heard_started (card : Card) : Heard (started card) [] := by
  refine ⟨rfl, rfl, fun n hn => ?_, fun n hn => ?_, fun e he => ?_⟩
  · cases hn
  · cases hn
  · cases he

theorem heard_of_reach {card : Card} {guard : Overheard → DeviceInput → Prop}
    (h : Reach earStep guard ((started card, none), []) ((app, o), ear)) : Heard app ear := by
  have hkeep : ∀ s d s', Heard (Prod.fst (Prod.fst s)) (Prod.snd s) → guard s d →
      earStep s d = some s' → Heard s'.1.1 s'.2 := by
    rintro ⟨⟨app, o⟩, ear⟩ d s' hs - hstep
    obtain ⟨s₁, hdevice, rfl⟩ := Option.map_eq_some_iff.mp hstep
    cases d with
    | input i writes =>
      obtain ⟨app', happ, rfl⟩ := deviceStep_input hdevice
      have hnext := hs.step happ
      dsimp only
      split
      · exact ⟨hnext.decoder, hnext.text, hnext.worker, hnext.receiving, hnext.posts⟩
      · exact hnext
    | start =>
      cases hdevice
      exact heard_started _
  have hstart : Heard (Prod.fst (Prod.fst (((started card, none), []) : Overheard))) [] :=
    heard_started card
  exact h.invariant hstart hkeep

/-- The signals may be forgotten. -/
theorem reach_device {card : Card}
    (h : Reach earStep (fun _ _ => True) ((started card, none), []) ((app, o), ear)) :
    Reach deviceStep (fun _ _ => True) (started card, none) (app, o) := by
  refine Reach.map (f := Prod.fst) (g := id) ?_ h
  intro s d s' _ hstep
  obtain ⟨s₁, hdevice, rfl⟩ := Option.map_eq_some_iff.mp hstep
  exact ⟨trivial, hdevice⟩

end Runs

end InfraFi.Flipper.Gui
