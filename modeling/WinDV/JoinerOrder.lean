import WinDV.JoinerThreads

/-! The joiner plays its files one after the other, each once. One event says
that a file has ended and that the joiner is to stop; which of them it was, the
joiner thread learns from `m_stopping`. -/

namespace WinDV.JoinerThreads

open Transition

/-- The frame that the streaming thread holds in `HandleFrame`. -/
def carried : StreamPc → List Frame
  | .testStopping (some f) | .handling (some f) => [f]
  | .outside | .testStopping none | .handling none => []

/-- The frame that it holds and will forward. -/
def admitted : StreamPc → List Frame
  | .handling (some f) => [f]
  | .outside | .testStopping _ | .handling none => []

/-- The streaming thread is in the call that ends the stream. -/
def Ending (pc : StreamPc) : Prop := pc = .testStopping none ∨ pc = .handling none

/-- The frames of the files that were opened. -/
def opened (s : JoinerThreads) : List Frame := (s.files.take s.current).flatten

/-- The reader `r` is at work, and its end, once delivered, is in the event. -/
structure Playing (s : JoinerThreads) (r : CAVIReader) : Prop where
  reader : s.reader = some r
  frames : s.forwarded ++ carried s.stream ++ r.pending = s.opened
  ended_of_ending : Ending s.stream → r.ended = true
  none_left : r.ended = true → r.pending = [] ∧ carried s.stream = []
  told : s.ev = true → r.ended = true ∧ s.stream = .outside
  will_tell : r.ended = true → s.ev = true ∨ Ending s.stream
  running : r.running = true ∨ s.main = .starting

/-- The files that were opened are over, and their last reader, if it is still
there, has nothing more to call. -/
structure Played (s : JoinerThreads) : Prop where
  outside : s.stream = .outside
  spent : ∀ r, s.reader = some r → r.pending = [] ∧ r.ended = true
  frames : s.forwarded = s.opened

def StopBegun (s : JoinerThreads) : Prop :=
  s.stopping = true ∨ s.main = .stopped

def AtPc (s : JoinerThreads) : Prop :=
  match s.joiner with
  | .waiting => s.stopping = true ∨ ∃ r, s.Playing r
  | .testStopping => s.stopping = true ∨ s.Played
  | .testCurrent => s.Played
  | .deleting => s.Played ∧ s.current < s.files.length
  | .opening => s.Played ∧ s.current < s.files.length ∧ s.reader = none
  | .starting => s.stream = .outside ∧
    ∃ frames, s.reader = some ⟨false, frames, false⟩ ∧ s.forwarded ++ frames = s.opened
  | .sendingEnd => s.Played ∧ s.files.length ≤ s.current
  | .returned => s.StopBegun ∧ s.endsSent = 0 ∨ s.endsSent = 1 ∧ s.Played ∧ s.files.length ≤ s.current

structure Sound (s : JoinerThreads) : Prop where
  atPc : s.AtPc
  prefix_flatten : s.forwarded ++ admitted s.stream <+: s.files.flatten
  none_sent : s.joiner ≠ .returned → s.endsSent = 0
  quiet : s.joiner ≠ .waiting → s.joiner ≠ .returned → s.stopping = true ∨ s.ev = false
  starting : s.main = .starting → s.joiner = .waiting ∧ s.stream = .outside ∧ s.ev = false ∧
    ∀ r, s.reader = some r → r.running = false
  stopping_iff : s.stopping = true ↔
    s.main = .signalling ∨ s.main = .waitingThread ∨ s.main = .deleting ∨ s.main = .resetting
  joined : s.main = .deleting ∨ s.main = .resetting ∨ s.main = .stopped → s.joiner = .returned
  gone : s.main = .resetting ∨ s.main = .stopped → s.reader = none ∧ s.stream = .outside

variable {s t : JoinerThreads} {a : JoinerAction}

/-- The streaming thread is in a call, or can make one. -/
def Streaming (s : JoinerThreads) : Prop :=
  s.stream ≠ .outside ∨
    ∃ r, s.reader = some r ∧ r.running = true ∧ (r.pending = [] → r.ended = false)

theorem Played.not_streaming (h : s.Played) : ¬ s.Streaming := by
  rintro (hs | ⟨r, hr, -, hleft⟩)
  · exact hs h.outside
  · have hspent := h.spent r hr
    simp [hspent.2] at hleft
    exact hleft hspent.1

/-- The streaming thread moves only while the joiner waits for it, or during `Stop`. -/
theorem Sound.joiner_of_streaming (h : s.Sound) (hstream : s.Streaming) :
    s.stopping = false ∧ s.joiner = .waiting ∧ (∃ r, s.Playing r) ∨
      s.stopping = true ∧
        (s.joiner = .waiting ∨ s.joiner = .testStopping ∨ s.joiner = .returned ∧ s.endsSent = 0) := by
  have hat := h.atPc
  cases hj : s.joiner with
  | waiting =>
    simp only [AtPc, hj] at hat
    cases hstop : s.stopping with
    | false => exact .inl ⟨rfl, rfl, hat.resolve_left (by simp [hstop])⟩
    | true => exact .inr ⟨rfl, .inl rfl⟩
  | testStopping =>
    simp only [AtPc, hj] at hat
    exact .inr ⟨hat.resolve_right fun hp => hp.not_streaming hstream, .inr (.inl rfl)⟩
  | testCurrent =>
    simp only [AtPc, hj] at hat
    exact absurd hstream hat.not_streaming
  | deleting =>
    simp only [AtPc, hj] at hat
    exact absurd hstream hat.1.not_streaming
  | opening =>
    simp only [AtPc, hj] at hat
    exact absurd hstream hat.1.not_streaming
  | starting =>
    simp only [AtPc, hj] at hat
    obtain ⟨hs, frames, hr, -⟩ := hat
    rcases hstream with hne | ⟨r, hr', hrun, -⟩
    · exact absurd hs hne
    · obtain rfl := Option.some.inj (hr.symm.trans hr')
      cases hrun
  | sendingEnd =>
    simp only [AtPc, hj] at hat
    exact absurd hstream hat.1.not_streaming
  | returned =>
    simp only [AtPc, hj] at hat
    rcases hat with ⟨hstop | hstopped, hsent⟩ | ⟨-, hp, -⟩
    · exact .inr ⟨hstop, .inr (.inr ⟨rfl, hsent⟩)⟩
    · -- after `Stop` there is no reader left
      obtain ⟨hnone, hout⟩ := h.gone (.inr hstopped)
      rcases hstream with hne | ⟨r, hr, -⟩
      · exact absurd hout hne
      · rw [hnone] at hr
        cases hr
    · exact absurd hstream hp.not_streaming

/-- A step of the streaming thread, from what it does while the reader is at work. -/
theorem Sound.streams (h : s.Sound) (hstream : s.Streaming) {reader : Option CAVIReader}
    {stream : StreamPc} {forwarded : List Frame} {ev : Bool}
    (hplay : s.stopping = false → ∀ r, s.Playing r → ∃ r', Playing { s with
      reader := reader, stream := stream, forwarded := forwarded, ev := ev } r')
    (hpre : forwarded ++ admitted stream <+: s.files.flatten) :
    Sound { s with reader := reader, stream := stream, forwarded := forwarded, ev := ev } := by
  have hjoiner := h.joiner_of_streaming hstream
  have hstarting : s.main ≠ .starting := by
    intro hm
    obtain ⟨-, hout, -, hrun⟩ := h.starting hm
    rcases hstream with hne | ⟨r, hr, hrun', -⟩
    · exact hne hout
    · rw [hrun r hr] at hrun'
      cases hrun'
  have hgone : ¬ (s.main = .resetting ∨ s.main = .stopped) := by
    intro hm
    obtain ⟨hnone, hout⟩ := h.gone hm
    rcases hstream with hne | ⟨r, hr, -⟩
    · exact hne hout
    · rw [hnone] at hr
      cases hr
  refine
    { h with
      atPc := ?_
      prefix_flatten := hpre
      quiet := fun hw hr => ?_
      starting := fun hm => absurd hm hstarting
      gone := fun hm => absurd hm hgone }
  · rcases hjoiner with ⟨hstop, hj, r, hr⟩ | ⟨hstop, hj | hj | ⟨hj, hsent⟩⟩
    · have hp := hplay hstop r hr
      simp only [hj] at hp
      simp only [AtPc, hj]
      exact .inr hp
    · simp [AtPc, hj, hstop]
    · simp [AtPc, hj, hstop]
    · simp [AtPc, hj, hstop, hsent, StopBegun]
  · rcases hjoiner with ⟨-, hj, -⟩ | ⟨hstop, -⟩
    · exact absurd hj hw
    · exact .inl hstop

theorem Playing.untold_of_calling {r : CAVIReader} (h : s.Playing r) (hs : s.stream ≠ .outside) :
    s.ev = false :=
  Bool.eq_false_iff.mpr fun hev => hs (h.told hev).2

theorem Playing.untold_of_not_ended {r : CAVIReader} (h : s.Playing r) (hr : r.ended = false) :
    s.ev = false :=
  Bool.eq_false_iff.mpr fun hev => Bool.eq_false_iff.mp hr (h.told hev).1

theorem Playing.frameCalled {r : CAVIReader} {f : Frame} {pending : List Frame} {ended : Bool}
    (h : s.Playing r) (hs : s.stream = .outside) (hr : s.reader = some ⟨true, f :: pending, ended⟩) :
    Playing { s with reader := some ⟨true, pending, ended⟩, stream := .testStopping (some f) }
      ⟨true, pending, ended⟩ := by
  obtain rfl := Option.some.inj (h.reader.symm.trans hr)
  have hended : ended = false := by
    cases ended with
    | false => rfl
    | true => exact absurd (h.none_left rfl).1 (List.cons_ne_nil f pending)
  have hframes := h.frames
  have hev := h.untold_of_not_ended hended
  exact
    { reader := rfl
      frames := by simpa [carried, hs, opened] using hframes
      ended_of_ending := by simp [Ending]
      none_left := by simp [hended]
      told := by simp [hev]
      will_tell := by simp [hended]
      running := .inl rfl }

theorem Playing.endCalled {r : CAVIReader} (h : s.Playing r) (hs : s.stream = .outside)
    (hr : s.reader = some ⟨true, [], false⟩) :
    Playing { s with reader := some ⟨true, [], true⟩, stream := .testStopping none }
      ⟨true, [], true⟩ := by
  obtain rfl := Option.some.inj (h.reader.symm.trans hr)
  have hframes := h.frames
  have hev := h.untold_of_not_ended rfl
  exact
    { reader := rfl
      frames := by simpa [carried, hs, opened] using hframes
      ended_of_ending := fun _ => rfl
      none_left := fun _ => ⟨rfl, rfl⟩
      told := by simp [hev]
      will_tell := fun _ => .inr (.inl rfl)
      running := .inl rfl }

/-- A call that goes on past the test of `m_stopping`. -/
theorem Playing.admitted {r : CAVIReader} {data : Option Frame} (h : s.Playing r)
    (hs : s.stream = .testStopping data) : Playing { s with stream := .handling data } r := by
  have hcarried : carried (.handling data) = carried s.stream := by
    rw [hs]
    cases data <;> rfl
  have hev := h.untold_of_calling (by simp [hs])
  have hending : Ending (.handling data) ↔ Ending s.stream := by
    rw [hs]
    simp [Ending]
  exact
    { reader := h.reader
      frames := by
        rw [hcarried]
        exact h.frames
      ended_of_ending := fun he => h.ended_of_ending (hending.mp he)
      none_left := by
        rw [hcarried]
        exact h.none_left
      told := by simp [hev]
      will_tell := fun he => (h.will_tell he).imp_right hending.mpr
      running := h.running }

theorem Playing.frameForwarded {r : CAVIReader} {f : Frame} (h : s.Playing r)
    (hs : s.stream = .handling (some f)) :
    Playing { s with forwarded := s.forwarded ++ [f], stream := .outside } r := by
  have hframes := h.frames
  have hended : r.ended = false := by
    refine Bool.eq_false_iff.mpr fun hended => ?_
    have hnone := (h.none_left hended).2
    simp [hs, carried] at hnone
  have hev := h.untold_of_calling (by simp [hs])
  exact
    { reader := h.reader
      frames := by simpa [carried, hs, opened] using hframes
      ended_of_ending := by simp [Ending]
      none_left := by simp [hended]
      told := by simp [hev]
      will_tell := by simp [hended]
      running := h.running }

theorem Playing.endSignalled {r : CAVIReader} (h : s.Playing r) (hs : s.stream = .handling none) :
    Playing { s with ev := true, stream := .outside } r := by
  have hframes := h.frames
  have hended := h.ended_of_ending (.inr hs)
  exact
    { reader := h.reader
      frames := by simpa [carried, hs, opened] using hframes
      ended_of_ending := by simp [Ending]
      none_left := fun _ => ⟨(h.none_left hended).1, rfl⟩
      told := fun _ => ⟨hended, rfl⟩
      will_tell := fun _ => .inl rfl
      running := h.running }

/-- The event, once the reader has ended, was signalled by its end. -/
theorem Playing.played {r : CAVIReader} (h : s.Playing r) (hev : s.ev = true) : s.Played := by
  obtain ⟨hended, hout⟩ := h.told hev
  have hframes := h.frames
  refine ⟨hout, fun r' hr' => ?_, ?_⟩
  · obtain rfl := Option.some.inj (h.reader.symm.trans hr')
    exact ⟨(h.none_left hended).1, hended⟩
  · simpa [hout, carried, (h.none_left hended).1] using hframes

theorem opened_prefix (s : JoinerThreads) : s.opened <+: s.files.flatten := by
  conv_rhs => rw [← List.take_append_drop s.current s.files, List.flatten_append]
  exact List.prefix_append _ _

theorem Sound.joins (h : s.Sound) (hmoves : s.joiner ≠ .waiting ∨ s.ev = true)
    (hnot : s.joiner ≠ .returned) {joiner : JoinerPc} {reader : Option CAVIReader} {ev : Bool}
    {current endsSent : Nat}
    (hat : AtPc { s with
      joiner := joiner, reader := reader, ev := ev, current := current, endsSent := endsSent })
    (hsent : joiner ≠ .returned → endsSent = 0)
    (hquiet : joiner ≠ .waiting → joiner ≠ .returned → s.stopping = true ∨ ev = false) :
    Sound { s with
      joiner := joiner, reader := reader, ev := ev, current := current, endsSent := endsSent } where
  atPc := hat
  prefix_flatten := h.prefix_flatten
  none_sent := hsent
  quiet := hquiet
  starting hm := by
    obtain ⟨hj, -, hev, -⟩ := h.starting hm
    rcases hmoves with hw | hev'
    · exact absurd hj hw
    · simp [hev] at hev'
  stopping_iff := h.stopping_iff
  joined hm := absurd (h.joined hm) hnot
  gone hm := absurd (h.joined (.inr hm)) hnot

/-- The thread that stops the joiner undoes nothing that the other threads rely on. -/
theorem AtPc.main_moves (h : s.AtPc) (hstarted : s.main ≠ .starting) (hstopped : s.main ≠ .stopped)
    {main : MainPc} {stopping ev : Bool} (hstop : s.stopping = true → stopping = true)
    (hev : stopping = true ∨ ev = s.ev) :
    AtPc { s with main := main, stopping := stopping, ev := ev } := by
  unfold AtPc at h ⊢
  cases hj : s.joiner with
  | waiting =>
    simp only [hj] at h
    rcases h with hs | ⟨r, hr⟩
    · exact .inl (hstop hs)
    · rcases hev with hs | rfl
      · exact .inl hs
      · exact .inr ⟨r, hr.reader, hr.frames, hr.ended_of_ending, hr.none_left, hr.told, hr.will_tell,
          .inl (hr.running.resolve_right hstarted)⟩
  | testStopping =>
    simp only [hj] at h
    exact h.imp hstop fun hp => ⟨hp.outside, hp.spent, hp.frames⟩
  | testCurrent =>
    simp only [hj] at h
    exact ⟨h.outside, h.spent, h.frames⟩
  | deleting =>
    simp only [hj] at h
    exact ⟨⟨h.1.outside, h.1.spent, h.1.frames⟩, h.2⟩
  | opening =>
    simp only [hj] at h
    exact ⟨⟨h.1.outside, h.1.spent, h.1.frames⟩, h.2⟩
  | starting =>
    simp only [hj] at h
    exact h
  | sendingEnd =>
    simp only [hj] at h
    exact ⟨⟨h.1.outside, h.1.spent, h.1.frames⟩, h.2⟩
  | returned =>
    simp only [hj] at h
    exact h.imp (fun hs => ⟨.inl (hstop (hs.1.resolve_right hstopped)), hs.2⟩)
      fun hs => ⟨hs.1, ⟨hs.2.1.outside, hs.2.1.spent, hs.2.1.frames⟩, hs.2.2⟩

theorem sound_of_deliver (h : s.Sound) (hstep : Steps s .deliver t) : t.Sound := by
  have hpre := h.prefix_flatten
  cases hstep with
  | frameCalled f pending ended hs hr =>
    refine h.streams (.inr ⟨_, hr, rfl, by simp⟩) (fun _ r hplay => ⟨_, hplay.frameCalled hs hr⟩) ?_
    simpa [hs, JoinerThreads.admitted] using hpre
  | endCalled hs hr =>
    refine h.streams (.inr ⟨_, hr, rfl, by simp⟩) (fun _ r hplay => ⟨_, hplay.endCalled hs hr⟩) ?_
    simpa [hs, JoinerThreads.admitted] using hpre

theorem sound_of_stream (h : s.Sound) (hstep : Steps s .stream t) : t.Sound := by
  have hpre := h.prefix_flatten
  cases hstep with
  | dropped data hs hstop =>
    refine h.streams (.inl (by simp [hs])) (fun hrun => ?_) ?_
    · rw [hstop] at hrun
      cases hrun
    · simpa [hs, JoinerThreads.admitted] using hpre
  | sawRunning data hs hstop =>
    have hcalling : s.stream ≠ .outside := by simp [hs]
    refine h.streams (.inl hcalling) (fun _ r hplay => ⟨r, hplay.admitted hs⟩) ?_
    obtain ⟨r, hplay⟩ : ∃ r, s.Playing r := by
      rcases h.joiner_of_streaming (.inl hcalling) with ⟨-, -, hplay⟩ | ⟨hstopping, -⟩
      · exact hplay
      · rw [hstop] at hstopping
        cases hstopping
    have hcarried : JoinerThreads.admitted (.handling data) = carried s.stream := by
      rw [hs]
      cases data <;> rfl
    rw [hcarried]
    exact (hplay.frames ▸ List.prefix_append _ r.pending).trans s.opened_prefix
  | frameForwarded f hs =>
    refine h.streams (.inl (by simp [hs])) (fun _ r hplay => ⟨r, hplay.frameForwarded hs⟩) ?_
    simpa [hs, JoinerThreads.admitted] using hpre
  | endSignalled hs =>
    refine h.streams (.inl (by simp [hs])) (fun _ r hplay => ⟨r, hplay.endSignalled hs⟩) ?_
    simpa [hs, JoinerThreads.admitted] using hpre

theorem sound_of_joiner (h : s.Sound) (hstep : Steps s .joiner t) : t.Sound := by
  cases hstep with
  | woken hj hev =>
    have hat := h.atPc
    simp only [AtPc, hj] at hat
    refine h.joins (.inr hev) (by simp [hj]) (hat.imp_right fun ⟨r, hr⟩ => ?_)
      (fun _ => h.none_sent (by simp [hj])) (fun _ _ => .inr rfl)
    exact ⟨(hr.played hev).outside, (hr.played hev).spent, (hr.played hev).frames⟩
  | joinerStopped hj hstop =>
    have hsent := h.none_sent (by simp [hj])
    exact h.joins (.inl (by simp [hj])) (by simp [hj]) (.inl ⟨.inl hstop, hsent⟩) (fun _ => hsent)
      (fun _ hr => absurd rfl hr)
  | joinerGoesOn hj hstop =>
    have hat := h.atPc
    simp only [AtPc, hj] at hat
    have hp := hat.resolve_left (by simp [hstop])
    exact h.joins (.inl (by simp [hj])) (by simp [hj]) ⟨hp.outside, hp.spent, hp.frames⟩
      (fun _ => h.none_sent (by simp [hj])) (fun _ _ => h.quiet (by simp [hj]) (by simp [hj]))
  | moreFiles hj hc =>
    have hp := h.atPc
    simp only [AtPc, hj] at hp
    exact h.joins (.inl (by simp [hj])) (by simp [hj]) ⟨⟨hp.outside, hp.spent, hp.frames⟩, hc⟩
      (fun _ => h.none_sent (by simp [hj])) (fun _ _ => h.quiet (by simp [hj]) (by simp [hj]))
  | noMoreFiles hj hc =>
    have hp := h.atPc
    simp only [AtPc, hj] at hp
    exact h.joins (.inl (by simp [hj])) (by simp [hj])
      ⟨⟨hp.outside, hp.spent, hp.frames⟩, Nat.not_lt.mp hc⟩
      (fun _ => h.none_sent (by simp [hj])) (fun _ _ => h.quiet (by simp [hj]) (by simp [hj]))
  | deleted hj hs =>
    have hat := h.atPc
    simp only [AtPc, hj] at hat
    obtain ⟨hp, hc⟩ := hat
    exact h.joins (.inl (by simp [hj])) (by simp [hj])
      ⟨⟨hp.outside, fun r hr => absurd hr (by simp), hp.frames⟩, hc, rfl⟩
      (fun _ => h.none_sent (by simp [hj])) (fun _ _ => h.quiet (by simp [hj]) (by simp [hj]))
  | opened frames hj hf =>
    have hat := h.atPc
    simp only [AtPc, hj] at hat
    obtain ⟨hp, hc, -⟩ := hat
    refine h.joins (.inl (by simp [hj])) (by simp [hj]) ⟨hp.outside, frames, rfl, ?_⟩
      (fun _ => h.none_sent (by simp [hj])) (fun _ _ => h.quiet (by simp [hj]) (by simp [hj]))
    have hframes := hp.frames
    simp only [JoinerThreads.opened] at hframes ⊢
    rw [hframes, List.take_add_one, hf, List.flatten_append]
    simp
  | started r hj hr =>
    have hat := h.atPc
    simp only [AtPc, hj] at hat
    obtain ⟨hs, frames, hr', hframes⟩ := hat
    obtain rfl := Option.some.inj (hr.symm.trans hr')
    refine h.joins (.inl (by simp [hj])) (by simp [hj]) ?_
      (fun _ => h.none_sent (by simp [hj])) (fun hw _ => absurd rfl hw)
    rcases h.quiet (by simp [hj]) (by simp [hj]) with hstop | hev
    · exact .inl hstop
    · exact .inr ⟨_,
        { reader := rfl
          frames := by simpa [hs, carried, JoinerThreads.opened] using hframes
          ended_of_ending := by simp [hs, Ending]
          none_left := by simp
          told := by simp [hev]
          will_tell := by simp
          running := .inl rfl }⟩
  | endSent hj =>
    have hat := h.atPc
    simp only [AtPc, hj] at hat
    obtain ⟨hp, hc⟩ := hat
    have hsent := h.none_sent (by simp [hj])
    exact h.joins (.inl (by simp [hj])) (by simp [hj])
      (.inr ⟨by simp [hsent], ⟨hp.outside, hp.spent, hp.frames⟩, hc⟩) (fun hr => absurd rfl hr)
      (fun _ hr => absurd rfl hr)

theorem sound_of_main (h : s.Sound) (hstep : Steps s .main t) : t.Sound := by
  cases hstep with
  | firstStarted r hm hr =>
    obtain ⟨hj, hout, hev, -⟩ := h.starting hm
    have hstop : s.stopping = false :=
      Bool.eq_false_iff.mpr fun hs => by simpa [hm] using h.stopping_iff.mp hs
    have hat := h.atPc
    simp only [AtPc, hj] at hat
    obtain ⟨r', hp⟩ := hat.resolve_left (by simp [hstop])
    obtain rfl := Option.some.inj (hr.symm.trans hp.reader)
    refine
      { h with
        atPc := ?_
        starting := fun hm => by cases hm
        stopping_iff := by simp [hstop]
        joined := fun hm => by simp at hm
        gone := fun hm => by simp at hm }
    simp only [AtPc, hj]
    exact .inr ⟨_, rfl, hp.frames, hp.ended_of_ending, hp.none_left, hp.told, hp.will_tell, .inl rfl⟩
  | stoppingSet hm =>
    exact
      { h with
        atPc := h.atPc.main_moves (by simp [hm]) (by simp [hm]) (fun _ => rfl) (.inl rfl)
        quiet := fun _ _ => .inl rfl
        starting := fun hm => by cases hm
        stopping_iff := by simp
        joined := fun hm => by simp at hm
        gone := fun hm => by simp at hm }
  | stopSignalled hm =>
    have hstop := h.stopping_iff.mpr (.inl hm)
    exact
      { h with
        atPc := h.atPc.main_moves (by simp [hm]) (by simp [hm]) id (.inl hstop)
        quiet := fun _ _ => .inl hstop
        starting := fun hm => by cases hm
        stopping_iff := by simp [hstop]
        joined := fun hm => by simp at hm
        gone := fun hm => by simp at hm }
  | joined hm hj =>
    have hstop := h.stopping_iff.mpr (.inr (.inl hm))
    exact
      { h with
        atPc := h.atPc.main_moves (by simp [hm]) (by simp [hm]) id (.inl hstop)
        starting := fun hm => by cases hm
        stopping_iff := by simp [hstop]
        joined := fun _ => hj
        gone := fun hm => by simp at hm }
  | lastDeleted hm hs =>
    have hstop := h.stopping_iff.mpr (.inr (.inr (.inl hm)))
    have hj := h.joined (.inl hm)
    have hat := h.atPc
    simp only [AtPc, hj] at hat
    refine
      { h with
        atPc := ?_
        starting := fun hm => by cases hm
        stopping_iff := by simp [hstop]
        joined := fun _ => hj
        gone := fun _ => ⟨rfl, hs⟩ }
    simp only [AtPc, hj]
    exact hat.imp (fun hsent => ⟨.inl hstop, hsent.2⟩)
      fun hsent => ⟨hsent.1, ⟨hs, fun r hr => absurd hr (by simp), hsent.2.1.frames⟩, hsent.2.2⟩
  | stoppingReset hm =>
    have hj := h.joined (.inr (.inl hm))
    obtain ⟨hnone, hs⟩ := h.gone (.inl hm)
    have hat := h.atPc
    simp only [AtPc, hj] at hat
    refine
      { h with
        atPc := ?_
        quiet := fun _ hr => absurd hj hr
        starting := fun hm => by cases hm
        stopping_iff := by simp
        joined := fun _ => hj
        gone := fun _ => ⟨hnone, hs⟩ }
    simp only [AtPc, hj]
    exact hat.imp (fun hsent => ⟨.inr rfl, hsent.2⟩)
      fun hsent => ⟨hsent.1, ⟨hs, hsent.2.1.spent, hsent.2.1.frames⟩, hsent.2.2⟩

theorem sound_of_stop (h : s.Sound) (hstep : Steps s .stop t) : t.Sound := by
  cases hstep with
  | stopCalled hm =>
    have hstop : s.stopping = false :=
      Bool.eq_false_iff.mpr fun hs => by simpa [hm] using h.stopping_iff.mp hs
    exact
      { h with
        atPc := h.atPc.main_moves (by simp [hm]) (by simp [hm]) id (.inr rfl)
        starting := fun hm => by cases hm
        stopping_iff := by simp [hstop]
        joined := fun hm => by simp at hm
        gone := fun hm => by simp at hm }

theorem sound_of_steps (h : s.Sound) (hstep : Steps s a t) : t.Sound := by
  cases a with
  | deliver => exact sound_of_deliver h hstep
  | stream => exact sound_of_stream h hstep
  | joiner => exact sound_of_joiner h hstep
  | main => exact sound_of_main h hstep
  | stop => exact sound_of_stop h hstep

theorem start_sound {files : List (List Frame)} (hne : files ≠ []) : (start files).Sound := by
  obtain ⟨frames, rest, rfl⟩ := List.exists_cons_of_ne_nil hne
  exact
    { atPc := .inr ⟨⟨false, frames, false⟩,
        { reader := rfl
          frames := by simp [start, carried, opened]
          ended_of_ending := by simp [start, Ending]
          none_left := by simp
          told := by simp [start]
          will_tell := by simp
          running := .inr rfl }⟩
      prefix_flatten := by simp [start, admitted]
      none_sent := fun _ => rfl
      quiet := fun hw => absurd rfl hw
      starting := fun _ => ⟨rfl, rfl, rfl, fun r hr => by simp [start] at hr; simp [← hr]⟩
      stopping_iff := by simp [start]
      joined := by simp [start]
      gone := by simp [start] }

theorem files_of_steps (hstep : Steps s a t) : t.files = s.files := by
  cases hstep <;> rfl

/-- What the handler was called with so far: the frames of the files in order,
and the end of the stream once at most, after all of them. -/
structure JoinedOnce (files : List (List Frame)) (s : JoinerThreads) : Prop where
  forwarded_prefix : s.forwarded <+: files.flatten
  sent_once : s.endsSent ≤ 1
  all_forwarded : s.endsSent ≠ 0 → s.forwarded = files.flatten

theorem Sound.joinedOnce (h : s.Sound) : JoinedOnce s.files s := by
  have hsent : s.endsSent = 0 ∨ s.endsSent = 1 ∧ s.forwarded = s.files.flatten := by
    by_cases hj : s.joiner = .returned
    · have hat := h.atPc
      simp only [AtPc, hj] at hat
      rcases hat with ⟨-, hzero⟩ | ⟨hone, hp, hc⟩
      · exact .inl hzero
      · refine .inr ⟨hone, ?_⟩
        rw [hp.frames, opened, List.take_of_length_le hc]
    · exact .inl (h.none_sent hj)
  exact
    { forwarded_prefix := (List.prefix_append _ _).trans h.prefix_flatten
      sent_once := by omega
      all_forwarded := fun hne => (hsent.resolve_left hne).2 }

section Progress

def readerWork (r : CAVIReader) : Nat := 3 * r.pending.length + if r.ended then 0 else 3

def streamWork : StreamPc → Nat
  | .outside => 0
  | .testStopping _ => 2
  | .handling _ => 1

def joinerWork : JoinerPc → Nat
  | .starting => 7
  | .waiting => 6
  | .testStopping => 5
  | .testCurrent => 4
  | .deleting => 3
  | .opening => 2
  | .sendingEnd => 1
  | .returned => 0

def fileWork (frames : List Frame) : Nat := 3 * frames.length + 9

/-- The steps that are left at most, when nobody stops the joiner. -/
def work (s : JoinerThreads) : Nat :=
  (if s.main = .starting then 1 else 0) + streamWork s.stream +
    (s.reader.map readerWork).getD 0 + joinerWork s.joiner +
    ((s.files.drop s.current).map fileWork).sum

/-- `Stop` was not called. -/
def Unstopped (s : JoinerThreads) : Prop := s.main = .starting ∨ s.main = .running

theorem work_lt (hmain : s.Unstopped) (hstep : Steps s a t) (hnot : a ≠ .stop) : t.work < s.work := by
  unfold work
  cases hstep with
  | frameCalled f pending ended hs hr =>
    simp only [hs, hr, streamWork, readerWork, Option.map_some, Option.getD_some, List.length_cons]
    omega
  | endCalled hs hr =>
    simp only [hs, hr, streamWork, readerWork, Option.map_some, Option.getD_some, if_true,
      Bool.false_eq_true, if_false]
    omega
  | dropped data hs => simp only [hs, streamWork]; omega
  | sawRunning data hs => simp only [hs, streamWork]; omega
  | frameForwarded f hs => simp only [hs, streamWork]; omega
  | endSignalled hs => simp only [hs, streamWork]; omega
  | woken hj => simp only [hj, joinerWork]; omega
  | joinerStopped hj => simp only [hj, joinerWork]; omega
  | joinerGoesOn hj => simp only [hj, joinerWork]; omega
  | moreFiles hj => simp only [hj, joinerWork]; omega
  | noMoreFiles hj => simp only [hj, joinerWork]; omega
  | deleted hj => simp only [hj, joinerWork, Option.map_none, Option.getD_none]; omega
  | opened frames hj hf =>
    obtain ⟨hlt, rfl⟩ := List.getElem?_eq_some_iff.mp hf
    rw [List.drop_eq_getElem_cons hlt]
    simp only [hj, joinerWork, readerWork, fileWork, Option.map_some, Option.getD_some,
      Bool.false_eq_true, if_false, List.map_cons, List.sum_cons]
    omega
  | started r hj hr =>
    simp only [hj, hr, joinerWork, readerWork, Option.map_some, Option.getD_some]
    omega
  | endSent hj => simp only [hj, joinerWork]; omega
  | firstStarted r hm hr =>
    simp only [hm, hr, readerWork, Option.map_some, Option.getD_some, if_true, reduceCtorEq, if_false]
    omega
  | stoppingSet hm => simp [Unstopped, hm] at hmain
  | stopSignalled hm => simp [Unstopped, hm] at hmain
  | joined hm => simp [Unstopped, hm] at hmain
  | lastDeleted hm => simp [Unstopped, hm] at hmain
  | stoppingReset hm => simp [Unstopped, hm] at hmain
  | stopCalled => exact absurd rfl hnot

theorem unstopped_of_steps (hmain : s.Unstopped) (hstep : Steps s a t) (hnot : a ≠ .stop) :
    t.Unstopped := by
  cases hstep with
  | firstStarted r hm hr => exact .inr rfl
  | stoppingSet hm => simp [Unstopped, hm] at hmain
  | stopSignalled hm => simp [Unstopped, hm] at hmain
  | joined hm => simp [Unstopped, hm] at hmain
  | lastDeleted hm => simp [Unstopped, hm] at hmain
  | stoppingReset hm => simp [Unstopped, hm] at hmain
  | stopCalled => exact absurd rfl hnot
  | _ => exact hmain

theorem Sound.not_stopBegun (h : s.Sound) (hmain : s.Unstopped) : s.stopping = false ∧ s.main ≠ .stopped := by
  rcases hmain with hm | hm
  · exact ⟨Bool.eq_false_iff.mpr fun hs => by simpa [hm] using h.stopping_iff.mp hs, by simp [hm]⟩
  · exact ⟨Bool.eq_false_iff.mpr fun hs => by simpa [hm] using h.stopping_iff.mp hs, by simp [hm]⟩

/-- A thread that is in a call, or has one to make, can go on. -/
theorem Playing.moves {r : CAVIReader} (h : s.Playing r) (hj : s.joiner = .waiting) :
    ∃ b, b ≠ JoinerAction.stop ∧ (s.step b).isSome = true := by
  cases hs : s.stream with
  | testStopping data =>
    refine ⟨.stream, by simp, ?_⟩
    simp only [step, streamStep, hs]
    split <;> rfl
  | handling data =>
    refine ⟨.stream, by simp, ?_⟩
    cases data <;> simp [step, streamStep, hs]
  | outside =>
    by_cases hev : s.ev = true
    · exact ⟨.joiner, by simp, by simp [step, joinerStep, hj, hev]⟩
    · have hended : r.ended = false := by
        refine Bool.eq_false_iff.mpr fun hended => ?_
        rcases h.will_tell hended with htold | hending
        · exact hev htold
        · simp [hs, Ending] at hending
      rcases h.running with hrun | hm
      · obtain ⟨running, pending, ended⟩ := r
        obtain rfl : running = true := hrun
        obtain rfl : ended = false := hended
        have hr := h.reader
        refine ⟨.deliver, by simp, ?_⟩
        cases pending <;> simp [step, deliverStep, hs, hr]
      · exact ⟨.main, by simp, by simp [step, mainStep, hm, h.reader]⟩

theorem Sound.moves (h : s.Sound) (hmain : s.Unstopped) (hsent : s.endsSent = 0) :
    ∃ b, b ≠ JoinerAction.stop ∧ (s.step b).isSome = true := by
  obtain ⟨hstop, hstopped⟩ := h.not_stopBegun hmain
  have hat := h.atPc
  cases hj : s.joiner with
  | waiting =>
    simp only [AtPc, hj] at hat
    obtain ⟨r, hr⟩ := hat.resolve_left (by simp [hstop])
    exact hr.moves hj
  | testStopping => exact ⟨.joiner, by simp, by simp [step, joinerStep, hj, hstop]⟩
  | testCurrent =>
    refine ⟨.joiner, by simp, ?_⟩
    simp only [step, joinerStep, hj]
    split <;> rfl
  | deleting =>
    simp only [AtPc, hj] at hat
    exact ⟨.joiner, by simp, by simp [step, joinerStep, hj, hat.1.outside]⟩
  | opening =>
    simp only [AtPc, hj] at hat
    exact ⟨.joiner, by simp, by simp [step, joinerStep, hj, hat.2.1]⟩
  | starting =>
    simp only [AtPc, hj] at hat
    obtain ⟨-, frames, hr, -⟩ := hat
    exact ⟨.joiner, by simp, by simp [step, joinerStep, hj, hr]⟩
  | sendingEnd => exact ⟨.joiner, by simp, by simp [step, joinerStep, hj]⟩
  | returned =>
    simp only [AtPc, hj] at hat
    rcases hat with ⟨hbegun, -⟩ | ⟨hone, -⟩
    · rcases hbegun with hs | hm
      · simp [hstop] at hs
      · exact absurd hm hstopped
    · omega

end Progress

/-- In every interleaving the handler gets the frames of the files in order and
their end once at most, after all of them; and when nobody calls `Stop`, the
threads come to rest after finitely many steps, all of it sent. -/
theorem joins_exactly_once (files : List (List Frame)) (hne : files ≠ []) :
    (∀ acts s, Run step (fun _ _ => True) (start files) acts s → JoinedOnce files s) ∧
    ∀ acts s, Run step (fun _ a => a ≠ .stop) (start files) acts s →
      acts.length ≤ (start files).work ∧
      ((∀ a, a ≠ .stop → s.step a = none) → s.endsSent = 1 ∧ s.forwarded = files.flatten) := by
  constructor
  · intro acts s hrun
    have hkeep : ∀ t a u, t.Sound ∧ t.files = files → True → step t a = some u →
        u.Sound ∧ u.files = files := by
      rintro t a u ⟨hsound, hfiles⟩ - hstep
      have hsteps := steps_of_step hstep
      exact ⟨sound_of_steps hsound hsteps, (files_of_steps hsteps).trans hfiles⟩
    obtain ⟨hsound, hfiles⟩ := hrun.invariant hkeep ⟨start_sound hne, rfl⟩
    rw [← hfiles]
    exact hsound.joinedOnce
  · intro acts s hrun
    have hinv : s.Sound ∧ s.files = files ∧ s.Unstopped ∧
        acts.length + s.work ≤ (start files).work := by
      induction hrun with
      | nil => exact ⟨start_sound hne, rfl, .inl rfl, by simp⟩
      | snoc _ hok hstep ih =>
        obtain ⟨hsound, hfiles, hmain, hwork⟩ := ih
        have hsteps := steps_of_step hstep
        have hlt := work_lt hmain hsteps hok
        refine ⟨sound_of_steps hsound hsteps, (files_of_steps hsteps).trans hfiles,
          unstopped_of_steps hmain hsteps hok, ?_⟩
        rw [List.length_append, List.length_singleton]
        omega
    obtain ⟨hsound, hfiles, hmain, hwork⟩ := hinv
    refine ⟨by omega, fun hrest => ?_⟩
    have honce := hsound.joinedOnce
    rw [hfiles] at honce
    have hsent : s.endsSent ≠ 0 := by
      intro hzero
      obtain ⟨b, hb, hmoves⟩ := hsound.moves hmain hzero
      rw [hrest b hb] at hmoves
      cases hmoves
    have := honce.sent_once
    exact ⟨by omega, honce.all_forwarded hsent⟩

def blackFrame : Frame := ⟨400000, [0]⟩

/-- A file of one frame and an empty one, played to their end. -/
def twoFilesRun : List JoinerAction :=
  [.main, .deliver, .stream, .stream, .deliver, .stream, .stream,
    .joiner, .joiner, .joiner, .joiner, .joiner, .joiner, .deliver, .stream, .stream,
    .joiner, .joiner, .joiner, .joiner]

theorem twoFiles_joined :
    ∃ s, exec step (fun _ a => a ≠ .stop) (start [[blackFrame], []]) twoFilesRun = some s ∧
      s.endsSent = 1 ∧ s.forwarded = [blackFrame] := by
  have hsome : (exec step (fun _ a => a ≠ .stop) (start [[blackFrame], []]) twoFilesRun).isSome = true := by
    decide
  obtain ⟨s, hs⟩ := Option.isSome_iff_exists.mp hsome
  have hrest : ∀ a, a ≠ .stop → s.step a = none := by
    have hall : (exec step (fun _ a => a ≠ .stop) (start [[blackFrame], []]) twoFilesRun).all
        (fun s => [JoinerAction.deliver, .stream, .joiner, .main].all fun a => s.step a = none) = true := by
      decide
    rw [hs] at hall
    intro a ha
    cases a <;> simp_all
  exact ⟨s, hs, ((joins_exactly_once [[blackFrame], []] (by simp)).2 twoFilesRun s (run_of_exec hs)).2 hrest⟩

end WinDV.JoinerThreads
