import FlowTrace.Proofs.Session.CursorRange
import FlowTrace.Proofs.Session.Ownership

/-! # Tickers and the cursor

A session that plays has a ticker of its own. The tickers **match** the cursor
(`Session.TickersMatch`) when the session holds a ticker exactly while the cursor plays, a ticker is
running exactly then, and no ticker runs but the one that is held.

They do not always match. A result that is committed while the cursor plays puts the cursor back
without stopping its ticker: the ticker is **abandoned** (`Weave.Abandons`). It is held until the
playback is stopped or started the next time, and it runs until it is stopped together with it or
ticks once more. The main statement, `Weave.tickers_match_iff`, says that this is the only way in
which the tickers and the cursor part, and for how long: they match exactly when each abandoned
ticker has stopped running and its epoch is over. It also says what always holds: a cursor that
plays has a running ticker, and under the policy that drops results no ticker is ever abandoned. -/

namespace FlowTrace

namespace Session

variable {s s' : Session} {epoch : Nat}

/-- The ticker of an epoch **runs**: it was neither told to stop nor has come to its end. -/
def Runs (s : Session) (epoch : Nat) : Prop := ⟨epoch, true⟩ ∈ s.tickers

instance : Decidable (s.Runs epoch) :=
  inferInstanceAs (Decidable ((⟨epoch, true⟩ : Ticker) ∈ s.tickers))

/-- The tickers **match** the cursor. -/
structure TickersMatch (s : Session) : Prop where
  /-- The session holds a ticker exactly while the cursor plays. -/
  held : s.ticking.isSome = true ↔ s.cursor.playing = true
  /-- A ticker is running exactly while the cursor plays. -/
  running : (∃ epoch, s.Runs epoch) ↔ s.cursor.playing = true
  /-- Every ticker but the one that is held was told to stop or has come to its end. -/
  others : ∀ epoch, s.Runs epoch → s.ticking = some epoch

/-! ## Which tickers run -/

/-- Silencing some tickers: those that run afterwards ran before and are not among them. -/
theorem mem_silenced {tickers : List Ticker} {silent : Ticker → Bool} :
    (⟨epoch, true⟩ : Ticker) ∈ tickers.map
        (fun ticker => if silent ticker then { ticker with running := false } else ticker) ↔
      ⟨epoch, true⟩ ∈ tickers ∧ silent ⟨epoch, true⟩ = false := by
  rw [List.mem_map]
  constructor
  · rintro ⟨ticker, member, same⟩
    split at same
    · cases same
    · rename_i loud
      subst same
      exact ⟨member, by simpa using loud⟩
  · rintro ⟨member, loud⟩
    refine ⟨⟨epoch, true⟩, member, ?_⟩
    rw [if_neg (by simp [loud])]

/-- Stopping the playback silences the ticker that is held. -/
theorem runs_stopPlayback : s.stopPlayback.Runs epoch ↔ s.Runs epoch ∧ s.ticking ≠ some epoch := by
  refine mem_silenced.trans (and_congr_right fun _ => ?_)
  rw [beq_eq_false_iff_ne, ne_comm]

/-- Ending a ticker silences it. -/
theorem runs_endTicker {ended : Nat} :
    (s.endTicker ended).Runs epoch ↔ s.Runs epoch ∧ epoch ≠ ended := by
  refine mem_silenced.trans (and_congr_right fun _ => ?_)
  exact beq_eq_false_iff_ne

/-- Starting a ticker adds it to those that run. -/
theorem runs_startTicker : s.startTicker.Runs epoch ↔ epoch = s.epoch + 1 ∨ s.Runs epoch := by
  show _ ∈ _ :: _ ↔ _
  rw [List.mem_cons]
  refine or_congr ?_ Iff.rfl
  constructor
  · intro same
    exact congrArg Ticker.epoch same
  · rintro rfl
    rfl

/-! ## What a transition does to the playback -/

/-- The playback of a session, its position apart: the epoch, the ticker that is held, the tickers
and whether the cursor plays. -/
def playback (s : Session) : Nat × Option Nat × List Ticker × Bool :=
  (s.epoch, s.ticking, s.tickers, s.cursor.playing)

/-- **What a shift does to the playback.** It stays as it is; it is stopped; a ticker is started; a
ticker that no longer counts ends; or the ticker that counts ends with its last tick. -/
theorem Shift.playback (h : Shift s s') :
    s'.playback = s.playback ∨
      s'.playback = s.stopPlayback.playback ∨
      (s.cursor.playing = false ∧ s'.playback = s.startTicker.playback) ∨
      (∃ epoch, (epoch ≠ s.epoch ∨ s.cursor.playing = false) ∧
        s'.playback = (s.endTicker epoch).playback) ∨
      (s.cursor.playing = true ∧ s'.playback = (s.finish s.epoch).playback) := by
  cases h with
  | stay => exact Or.inl rfl
  | start context => exact Or.inr (Or.inl rfl)
  | reset => exact Or.inr (Or.inl rfl)
  | play h =>
    rcases (play_eq_ok h).2 with ⟨-, rfl⟩ | ⟨resting, rfl⟩
    · exact Or.inl rfl
    · exact Or.inr (Or.inr (Or.inl ⟨resting, rfl⟩))
  | pause => exact Or.inr (Or.inl rfl)
  | @move delta single =>
    rcases move_cases s delta with moved | ⟨-, -, moved⟩
    all_goals
      rw [moved]
      exact Or.inr (Or.inl rfl)
  | advance epoch =>
    rcases advance_cases s epoch with ⟨outdated, ticked⟩ | ⟨-, -, -, ticked⟩ |
      ⟨rfl, playing, -, ticked⟩
    · rw [ticked]
      exact Or.inr (Or.inr (Or.inr (Or.inl ⟨epoch, outdated, rfl⟩)))
    · rw [ticked]
      exact Or.inl rfl
    · rw [ticked]
      exact Or.inr (Or.inr (Or.inr (Or.inr ⟨playing, rfl⟩)))

/-! ## Abandoned tickers -/

/-- The playback is **accounted for**, given which tickers were abandoned. -/
structure Accounted (s : Session) (abandoned : Nat → Prop) : Prop where
  /-- A cursor that plays has the ticker of the current epoch, which is held and runs. -/
  playing : s.cursor.playing = true → s.ticking = some s.epoch ∧ s.Runs s.epoch
  /-- The ticker that is held is the one of the current epoch; the cursor plays or abandoned it. -/
  held : ∀ epoch, s.ticking = some epoch →
    epoch = s.epoch ∧ (s.cursor.playing = true ∨ abandoned epoch)
  /-- A ticker that runs is held or was abandoned. -/
  runs : ∀ epoch, s.Runs epoch → s.ticking = some epoch ∨ abandoned epoch
  /-- An abandoned ticker is held, without being played, as long as its epoch lasts. -/
  left : ∀ epoch, abandoned epoch → epoch ≤ s.epoch ∧
    (s.epoch = epoch → s.ticking = some epoch ∧ s.cursor.playing = false)

variable {abandoned abandoned' : Nat → Prop}

/-- Only the playback counts. -/
theorem Accounted.congr (h : Accounted s abandoned) (same : s'.playback = s.playback) :
    Accounted s' abandoned := by
  simp only [Session.playback, Prod.mk.injEq] at same
  obtain ⟨epochs, held, tickers, playing⟩ := same
  have runs (epoch : Nat) : s'.Runs epoch ↔ s.Runs epoch := by
    unfold Runs
    rw [tickers]
  refine ⟨?_, ?_, ?_, ?_⟩
  · rw [playing, held, epochs, runs]
    exact h.playing
  · rw [playing, held, epochs]
    exact h.held
  · intro epoch
    rw [held, runs]
    exact h.runs epoch
  · rw [playing, held, epochs]
    exact h.left

/-- Only which tickers were abandoned counts. -/
theorem Accounted.congr_abandoned (h : Accounted s abandoned)
    (same : ∀ epoch, abandoned' epoch ↔ abandoned epoch) : Accounted s abandoned' := by
  obtain rfl : abandoned' = abandoned := funext fun epoch => propext (same epoch)
  exact h

/-- Stopping the playback silences the ticker that is held, so that only abandoned ones run. -/
theorem Accounted.stopPlayback (h : Accounted s abandoned) :
    Accounted s.stopPlayback abandoned := by
  refine ⟨nofun, nofun, ?_, ?_⟩
  · intro epoch runs
    obtain ⟨ran, other⟩ := runs_stopPlayback.1 runs
    exact Or.inr ((h.runs epoch ran).resolve_left other)
  · intro epoch gone
    have past := (h.left epoch gone).1
    refine ⟨Nat.le_succ_of_le past, fun same => ?_⟩
    have next : s.stopPlayback.epoch = s.epoch + 1 := rfl
    omega

/-- Starting a ticker while nothing plays: a ticker that was still held had been abandoned. -/
theorem Accounted.startTicker (h : Accounted s abandoned) (resting : s.cursor.playing = false) :
    Accounted s.startTicker abandoned := by
  refine ⟨fun _ => ⟨rfl, runs_startTicker.2 (Or.inl rfl)⟩, ?_, ?_, ?_⟩
  · intro epoch held
    exact ⟨(Option.some.inj held).symm, Or.inl rfl⟩
  · intro epoch runs
    rcases runs_startTicker.1 runs with rfl | ran
    · exact Or.inl rfl
    · rcases h.runs epoch ran with held | gone
      · -- It is no longer held, and it goes on running.
        have played := (h.held epoch held).2
        rw [resting] at played
        exact Or.inr (played.resolve_left nofun)
      · exact Or.inr gone
  · intro epoch gone
    have past := (h.left epoch gone).1
    refine ⟨Nat.le_succ_of_le past, fun same => ?_⟩
    have next : s.startTicker.epoch = s.epoch + 1 := rfl
    omega

/-- A tick that no longer counts ends its ticker, and nothing else. -/
theorem Accounted.endTicker (h : Accounted s abandoned) {ended : Nat}
    (outdated : ended ≠ s.epoch ∨ s.cursor.playing = false) :
    Accounted (s.endTicker ended) abandoned := by
  refine ⟨?_, h.held, ?_, h.left⟩
  · intro playing
    obtain ⟨held, runs⟩ := h.playing playing
    refine ⟨held, runs_endTicker.2 ⟨runs, ?_⟩⟩
    rcases outdated with other | resting
    · exact fun same => other same.symm
    · exact absurd (resting.symm.trans playing) nofun
  · intro epoch runs
    exact h.runs epoch (runs_endTicker.1 runs).1

/-- With the last tick its ticker comes to its end, so that only abandoned ones run. -/
theorem Accounted.finish (h : Accounted s abandoned) (playing : s.cursor.playing = true) :
    Accounted (s.finish s.epoch) abandoned := by
  refine ⟨nofun, nofun, ?_, ?_⟩
  · intro epoch runs
    obtain ⟨ran, other⟩ := runs_endTicker.1 runs
    rcases h.runs epoch ran with held | gone
    · exact absurd (h.held epoch held).1 other
    · exact Or.inr gone
  · intro epoch gone
    obtain ⟨past, still⟩ := h.left epoch gone
    refine ⟨past, fun same => ?_⟩
    -- The ticker of the epoch in which the cursor plays was not abandoned.
    have resting := (still same).2
    exact absurd (resting.symm.trans playing) nofun

/-- Every shift keeps the account. -/
theorem Accounted.shift (h : Accounted s abandoned) (shifted : Shift s s') :
    Accounted s' abandoned := by
  rcases shifted.playback with same | same | ⟨resting, same⟩ | ⟨ended, outdated, same⟩ |
    ⟨playing, same⟩
  · exact h.congr same
  · exact h.stopPlayback.congr same
  · exact (h.startTicker resting).congr same
  · exact (h.endTicker outdated).congr same
  · exact (h.finish playing).congr same

/-- **Committing a result abandons the ticker** of a cursor that plays. -/
theorem Accounted.commit (h : Accounted s abandoned) (result : Result) :
    Accounted (s.commit result)
      (fun epoch => abandoned epoch ∨ (s.cursor.playing = true ∧ s.epoch = epoch)) := by
  -- The cursor no longer plays, but what is held and what runs is the same as before.
  refine ⟨nofun, ?_, ?_, ?_⟩
  · intro epoch held
    obtain ⟨rfl, played⟩ := h.held epoch held
    refine ⟨rfl, Or.inr ?_⟩
    rcases played with playing | gone
    · exact Or.inr ⟨playing, rfl⟩
    · exact Or.inl gone
  · intro epoch runs
    rcases h.runs epoch runs with held | gone
    · exact Or.inl held
    · exact Or.inr (Or.inl gone)
  · rintro epoch (gone | ⟨playing, rfl⟩)
    · obtain ⟨past, still⟩ := h.left epoch gone
      exact ⟨past, fun same => ⟨(still same).1, rfl⟩⟩
    · exact ⟨Nat.le_refl _, fun _ => ⟨(h.playing playing).1, rfl⟩⟩

/-- **When the tickers match**, given which were abandoned: when none of these runs and the current
epoch is none of theirs. -/
theorem Accounted.tickersMatch_iff (h : Accounted s abandoned) :
    TickersMatch s ↔ ∀ epoch, abandoned epoch → s.epoch ≠ epoch ∧ ¬ s.Runs epoch := by
  constructor
  · intro matched epoch gone
    have past : s.epoch ≠ epoch := by
      intro same
      obtain ⟨held, resting⟩ := (h.left epoch gone).2 same
      have playing := matched.held.1 (by rw [held]; rfl)
      exact absurd (resting.symm.trans playing) nofun
    refine ⟨past, fun runs => ?_⟩
    have held := matched.others epoch runs
    exact past (h.held epoch held).1.symm
  · intro settled
    -- What is held is played, and what runs is held, because nothing abandoned is left.
    have played (epoch : Nat) (held : s.ticking = some epoch) : s.cursor.playing = true := by
      obtain ⟨rfl, playing | gone⟩ := h.held epoch held
      · exact playing
      · exact absurd rfl (settled _ gone).1
    have others (epoch : Nat) (runs : s.Runs epoch) : s.ticking = some epoch :=
      (h.runs epoch runs).resolve_right fun gone => (settled epoch gone).2 runs
    refine ⟨⟨fun held => ?_, fun playing => ?_⟩, ⟨?_, fun playing => ?_⟩, others⟩
    · obtain ⟨epoch, held⟩ := Option.isSome_iff_exists.1 held
      exact played epoch held
    · rw [(h.playing playing).1]
      rfl
    · rintro ⟨epoch, runs⟩
      exact played epoch (others epoch runs)
    · exact ⟨s.epoch, (h.playing playing).2⟩

end Session

namespace Weave

variable {first w : Weave} {turns : List Turn} {last : Turn} {epoch : Nat}

/-- A turn **abandons** the ticker of an epoch: it commits a result while the cursor plays. -/
def Abandons (w : Weave) (t : Turn) (epoch : Nat) : Prop :=
  w.Commits t ∧ w.session.cursor.playing = true ∧ w.session.epoch = epoch

/-- The ticker of an epoch was **abandoned** in a run. -/
def Abandoned (first : Weave) (turns : List Turn) (epoch : Nat) : Prop :=
  ∃ w t, Took first turns w t ∧ w.Abandons t epoch

/-- The tickers abandoned in a longer run: those before, and one abandoned by the last turn. -/
theorem abandoned_concat :
    Abandoned first (turns ++ [last]) epoch ↔
      Abandoned first turns epoch ∨ (first.run turns).Abandons last epoch := by
  constructor
  · rintro ⟨w, t, took, abandons⟩
    rcases took_concat.1 took with earlier | ⟨rfl, rfl⟩
    · exact Or.inl ⟨w, t, earlier, abandons⟩
    · exact Or.inr abandons
  · rintro (⟨w, t, took, abandons⟩ | abandons)
    · exact ⟨w, t, took_concat.2 (Or.inl took), abandons⟩
    · exact ⟨first.run turns, last, took_concat.2 (Or.inr ⟨rfl, rfl⟩), abandons⟩

/-- A turn that commits no result abandons no ticker. -/
theorem abandoned_concat_of_not_commits (h : ¬ (first.run turns).Commits last) :
    Abandoned first (turns ++ [last]) epoch ↔ Abandoned first turns epoch := by
  rw [abandoned_concat]
  exact or_iff_left fun abandons => h abandons.1

/-- **The playback is accounted for in every run.** -/
theorem accounted_run (start : first.session.Accounted fun _ => False) (turns : List Turn) :
    (first.run turns).session.Accounted (Abandoned first turns) := by
  induction turns using List.reverseRecOn with
  | nil =>
    refine start.congr_abandoned fun epoch => iff_false_intro ?_
    rintro ⟨w, t, took, -⟩
    exact not_took_nil first w t took
  | append_singleton turns last ih =>
    rw [run_concat]
    rcases (first.run turns).session_turn last with ⟨place, generation, answer, concludes⟩ |
      ⟨never, shifted⟩
    · have session := session_conclude concludes
      rcases (first.run turns).session.apply_cases generation answer with
        ⟨result, rfl, rfl, committed⟩ | ⟨not_committed, calls, holding, status, failure, kept⟩
      · rw [session, committed]
        refine (ih.commit result).congr_abandoned fun epoch => ?_
        rw [abandoned_concat]
        exact or_congr Iff.rfl ⟨fun h => h.2, fun h => ⟨⟨place, result, concludes⟩, h⟩⟩
      · rw [session, kept]
        refine (ih.congr_abandoned fun epoch => abandoned_concat_of_not_commits ?_).congr rfl
        rintro ⟨other, result, committed⟩
        exact not_committed result (concludes.unique committed).2
    · refine (ih.shift shifted).congr_abandoned fun epoch => abandoned_concat_of_not_commits ?_
      rintro ⟨other, result, committed⟩
      exact never other _ _ committed

/-- Under the policy that drops results no ticker is abandoned: while the session waits for the
current submission it has no result, and nothing plays. -/
theorem not_abandoned (surroundings : Surroundings) (listeners : List (Text × Act))
    (turns : List Turn) (epoch : Nat) :
    ¬ Abandoned (fresh .clearBeforeCall surroundings listeners) turns epoch := by
  rintro ⟨w, t, ⟨before, after, -, rfl⟩, ⟨place, result, concludes⟩, playing, -⟩
  have none_yet : (fresh .clearBeforeCall surroundings listeners).strands = [] := rfl
  have empty := result_eq_none_of_inFlight none_yet rfl ⟨_, concludes.2, rfl⟩
  have range := inRange_run .clearBeforeCall surroundings listeners before
  obtain ⟨played, present, -⟩ := range.result_of_playing playing
  rw [empty] at present
  cases present

/-- **When the tickers match the cursor**, in every interleaving: exactly when each ticker that was
abandoned, by a result that was committed while the cursor played, has stopped running and its epoch
is over. In any case a cursor that plays has the running ticker of the current epoch, and the
session holds it. Under the policy that drops results the tickers always match. -/
theorem tickers_match_iff (policy : ClearPolicy) (surroundings : Surroundings)
    (listeners : List (Text × Act)) (turns : List Turn) :
    let first := fresh policy surroundings listeners
    let s := (first.run turns).session
    (s.TickersMatch ↔
        ∀ epoch, Abandoned first turns epoch → s.epoch ≠ epoch ∧ ¬ s.Runs epoch) ∧
      (s.cursor.playing = true → s.ticking = some s.epoch ∧ s.Runs s.epoch) ∧
      (policy = .clearBeforeCall → s.TickersMatch) := by
  intro first s
  have start : first.session.Accounted fun _ => False := by
    refine ⟨nofun, nofun, ?_, nofun⟩
    intro epoch runs
    cases runs
  have account : s.Accounted (Abandoned first turns) := accounted_run start turns
  refine ⟨account.tickersMatch_iff, account.playing, ?_⟩
  rintro rfl
  refine account.tickersMatch_iff.2 fun epoch gone => ?_
  exact absurd gone (not_abandoned surroundings listeners turns epoch)

/-- A result is played while the next one is on its way, and the next one arrives. -/
def playedOn : List Turn :=
  [.submit "x" "python" .live] ++ asking 0 ++ completing 0 ++
    [.submit "y" "python" .live] ++ asking 1 ++
    [.act .play, .work 2, .work 2] ++ completing 1

/-- The tickers do not match the cursor then: it does not play, but a ticker is held and runs. -/
theorem ticker_outlives_playback :
    ((fresh .preserveOnFailure {} []).run playedOn).session.cursor.playing = false ∧
      ((fresh .preserveOnFailure {} []).run playedOn).session.Runs 3 ∧
      ¬ ((fresh .preserveOnFailure {} []).run playedOn).session.TickersMatch := by
  refine ⟨by decide, by decide, fun matched => ?_⟩
  have playing := matched.held.1 (by decide)
  exact absurd playing (by decide)

end Weave

end FlowTrace
