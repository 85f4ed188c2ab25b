import SeastarExperiments.Duplex

/-! Progress of one duplex connection over bounded channels, with `stop()` at any end at any time.
A write completes only when the channel has taken all its bytes, and only a pending read empties a
channel. The reading loop leaves on the interrupt flag without draining its channel; a write
pending at the other end that no longer fits is then stranded, and with it the connection. -/

namespace SeastarExperiments

open ByteStream Transition

namespace Lane

/-- A lane over a channel of this capacity; a write completes once nothing of it is unsent. -/
def boundedConfig (writeSize readSize capacity : Nat) : LaneConfig where
  writeSize := writeSize
  readSize := readSize
  limits := ⟨some capacity, some 0⟩

/-- A write is pending that the channel can never take: its reader is gone and the rest of it does
not fit, or the channel takes nothing at all. -/
def Stranded (capacity : Nat) (l : Lane) : Prop :=
  l.writer = .writing ∧
    (capacity = 0 ∨ (l.reader.finished = true ∧ capacity < l.pipe.queued + l.pipe.unsent))

/-- The two turns that can strand a write: the reading loop leaves on the interrupt flag while a
write is pending that no longer fits, or the writing loop starts a write that no longer fits after
the reading loop has left. -/
def Strands (writeSize capacity : Nat) (writerInterrupted readerInterrupted : Bool) (l : Lane) :
    LaneEvent → Prop
  | .read .top =>
      readerInterrupted = true ∧ l.writer = .writing ∧ capacity < l.pipe.queued + l.pipe.unsent
  | .write .top =>
      writerInterrupted = false ∧
        (capacity = 0 ∨ (l.reader.finished = true ∧ capacity < l.pipe.queued + writeSize))
  | _ => False

instance (writeSize capacity : Nat) (wi ri : Bool) (l : Lane) (e : LaneEvent) :
    Decidable (l.Strands writeSize capacity wi ri e) :=
  match e with
  | .read .top => inferInstanceAs (Decidable (_ ∧ _ ∧ _))
  | .write .top => inferInstanceAs (Decidable (_ ∧ (_ ∨ (_ ∧ _))))
  | .read (.read _) | .read .failed | .write .written | .write .closed | .write .failed
  | .accept _ | .deliver _ => inferInstanceAs (Decidable False)

/-- The account of a lane whose writes complete only when sent: nothing is unsent between two
writes, the channel holds what it can, and no loop has failed. -/
structure Sound (writeSize readSize capacity : Nat) (l : Lane) : Prop where
  accounted : l.Accounted (boundedConfig writeSize readSize capacity)
  flushed : l.writer ≠ .writing → l.pipe.unsent = 0
  blocked : capacity = 0 → l.writer = .writing → 0 < l.pipe.unsent
  queued_le : l.pipe.queued ≤ capacity
  writer_ok : l.writer ≠ .failed
  reader_ok : l.reader ≠ .failed

section

variable {writeSize readSize capacity : Nat} {wi ri : Bool} {l l' : Lane} {e : LaneEvent}

theorem sound_start (writeSize readSize capacity : Nat) :
    Sound writeSize readSize capacity start := by
  refine ⟨accounted_start _, ?_, ?_, ?_, ?_, ?_⟩ <;> simp [start]

theorem sound_moves (hwrite : 0 < writeSize) (hsize : 0 < readSize)
    (hsound : Sound writeSize readSize capacity l)
    (hmoves : l.Moves (boundedConfig writeSize readSize capacity) wi ri e l') :
    Sound writeSize readSize capacity l' := by
  have hacc := accounted_moves hsize hsound.accounted hmoves
  obtain ⟨-, hflushed, hblocked, hqueued, hwriter_ok, hreader_ok⟩ := hsound
  cases hmoves with
  | beginClose hwriter hflag =>
      exact ⟨hacc, fun _ => hflushed (by simp [hwriter]), by simp, hqueued, by simp, hreader_ok⟩
  | beginWrite hwriter hflag =>
      exact ⟨hacc, fun h => absurd rfl h, fun _ _ => Nat.add_pos_right _ hwrite, hqueued, by simp,
        hreader_ok⟩
  | endWrite hwriter hdone =>
      exact ⟨hacc, fun _ => Nat.le_zero.mp hdone, by simp, hqueued, by simp, hreader_ok⟩
  | endClose hwriter hdone => exact ⟨hacc, fun _ => hdone, by simp, hqueued, by simp, hreader_ok⟩
  | accept n hpos hunsent hroom =>
      refine ⟨hacc, fun h => ?_, fun h => ?_, hroom, hwriter_ok, hreader_ok⟩
      · have := hflushed h
        omega
      · have hfits : l.pipe.queued + n ≤ capacity := hroom
        omega
  | deliver n hreader hpos hn hneed =>
      exact ⟨hacc, hflushed, hblocked, (Nat.sub_le _ _).trans hqueued, hwriter_ok, hreader_ok⟩
  | leave hreader hflag => exact ⟨hacc, hflushed, hblocked, hqueued, hwriter_ok, by simp⟩
  | beginRead hreader hflag => exact ⟨hacc, hflushed, hblocked, hqueued, hwriter_ok, by simp⟩
  | endRead hreader hpos hfull => exact ⟨hacc, hflushed, hblocked, hqueued, hwriter_ok, by simp⟩
  | endOfStream hreader hempty hfull =>
      exact ⟨hacc, hflushed, hblocked, hqueued, hwriter_ok, by simp⟩

/-- A write gets stranded by one of the two turns only. -/
theorem stranded_of_moves (hsize : 0 < readSize) (hsound : Sound writeSize readSize capacity l)
    (hmoves : l.Moves (boundedConfig writeSize readSize capacity) wi ri e l')
    (hstranded : l'.Stranded capacity) :
    l.Stranded capacity ∨ l.Strands writeSize capacity wi ri e := by
  obtain ⟨hwriter', hroom'⟩ := hstranded
  cases hmoves with
  | beginClose | endWrite | endClose => cases hwriter'
  | deliver n hreader | beginRead hreader | endRead hreader =>
      left
      refine ⟨hwriter', hroom'.imp_right ?_⟩
      rintro ⟨hgone, -⟩
      simp [hreader, ReadLoop.finished] at hgone
  | beginWrite hwriter hflag =>
      have hunsent := hsound.flushed (by simp [hwriter])
      refine Or.inr ⟨hflag, hroom'.imp_right ?_⟩
      rintro ⟨hgone, hfull⟩
      exact ⟨hgone, by simpa [Pipe.write, hunsent, boundedConfig] using hfull⟩
  | accept n hpos hunsent hroom =>
      refine Or.inl ⟨hwriter', hroom'.imp_right ?_⟩
      rintro ⟨hgone, hfull⟩
      refine ⟨hgone, ?_⟩
      simp only at hfull
      omega
  | leave hreader hflag =>
      rcases hroom' with hzero | ⟨-, hfull⟩
      · exact Or.inl ⟨hwriter', Or.inl hzero⟩
      · exact Or.inr ⟨hflag, hwriter', hfull⟩
  | endOfStream hreader hempty hfull =>
      -- the stream has not ended while a write is pending
      exfalso
      rcases hfull with hfull | ⟨hclosed, -⟩
      · simp only [boundedConfig] at hfull
        omega
      · have hstopped := hsound.accounted.closed_iff.mp hclosed
        simp only at hwriter'
        rw [hstopped] at hwriter'
        cases hwriter'

/-- A reading loop that is not over moves as long as its channel holds bytes or has ended. -/
theorem read_enabled (hheld : l.pipe.held ≤ readSize) (hbusy : l.reader.finished = false)
    (hdata : 0 < l.pipe.queued ∨ l.pipe.closed = true) (wi ri : Bool) :
    ∃ e, (l.step (boundedConfig writeSize readSize capacity) wi ri e).isSome = true := by
  cases hreader : l.reader with
  | top => exact ⟨.read .top, by simp [step, hreader, ReadLoop.step, readEffect]⟩
  | reading =>
      rcases Pipe.deliver_or_complete hheld hdata with ⟨n, q, hq⟩ | ⟨size, q, hq⟩
      · exact ⟨.deliver n, by simp [step, hreader, boundedConfig, hq]⟩
      · exact ⟨.read (.read size), by
          simp [step, hreader, ReadLoop.step, readEffect, boundedConfig, hq]⟩
  | stopped => simp [hreader, ReadLoop.finished] at hbusy
  | failed => simp [hreader, ReadLoop.finished] at hbusy

/-- A lane with an unfinished loop and no stranded write can take a step. -/
theorem enabled_of_not_stranded (hsound : Sound writeSize readSize capacity l)
    (hfree : ¬l.Stranded capacity) (hbusy : l.writer.finished = false ∨ l.reader.finished = false) (wi ri : Bool) :
    ∃ e, (l.step (boundedConfig writeSize readSize capacity) wi ri e).isSome = true := by
  have hheld : l.pipe.held ≤ readSize := hsound.accounted.held_le
  cases hwriter : l.writer with
  | top => exact ⟨.write .top, by simp [step, hwriter, WriteLoop.step, writeEffect]⟩
  | writing =>
      by_cases hunsent : l.pipe.unsent = 0
      · refine ⟨.write .written, ?_⟩
        simp [step, hwriter, WriteLoop.step, writeEffect, Pipe.Flushed, boundedConfig, hunsent]
      · by_cases hroom : l.pipe.queued + 1 ≤ capacity
        · obtain ⟨q, hq⟩ : ∃ q, l.pipe.accept ⟨some capacity, some 0⟩ 1 = some q :=
            Pipe.accept_of_room (Nat.pos_of_ne_zero hunsent) hroom
          exact ⟨.accept 1, by simp [step, boundedConfig, hq]⟩
        · -- the channel is full, so the reader must still be there to empty it
          have hcapacity : capacity ≠ 0 := fun hzero => hfree ⟨hwriter, Or.inl hzero⟩
          apply read_enabled hheld ?_ (Or.inl (by omega)) wi ri
          by_contra hgone
          exact hfree ⟨hwriter, Or.inr ⟨by simpa using hgone, by omega⟩⟩
  | closing =>
      refine ⟨.write .closed, ?_⟩
      simp [step, hwriter, WriteLoop.step, writeEffect, Pipe.close, hsound.flushed]
  | stopped =>
      have hreader : l.reader.finished = false := by simpa [hwriter, WriteLoop.finished] using hbusy
      exact read_enabled hheld hreader (Or.inr (hsound.accounted.closed_iff.mpr hwriter)) wi ri
  | failed => exact absurd hwriter hsound.writer_ok

/-- What is left to do in a lane whose writing end has been stopped. -/
def remaining (l : Lane) : Nat :=
  (match l.writer with
    | .writing => 3
    | .top => 2
    | .closing => 1
    | _ => 0) +
  (match l.reader with
    | .top => 2
    | .reading => 1
    | _ => 0) + 4 * l.pipe.unsent + 3 * l.pipe.queued + 2 * l.pipe.held

theorem remaining_lt (hmoves : l.Moves (boundedConfig writeSize readSize capacity) wi ri e l')
    (hstart : e = .write .top → wi = true) : l'.remaining < l.remaining := by
  cases hmoves with
  | beginWrite hwriter hflag => simp_all
  | beginClose hwriter | endWrite hwriter | endClose hwriter => simp [remaining, hwriter]
  | accept n hpos hunsent hroom =>
      simp only [remaining]
      omega
  | deliver n hreader hpos hqueued hneed =>
      simp only [remaining]
      omega
  | leave hreader | beginRead hreader | endOfStream hreader => simp [remaining, hreader]
  | endRead hreader hpos hfull =>
      simp only [remaining, hreader]
      omega

/-- A stranded write stays stranded, whatever its lane still does. -/
theorem stranded_moves (hsound : Sound writeSize readSize capacity l) (hstranded : l.Stranded capacity)
    (hmoves : l.Moves (boundedConfig writeSize readSize capacity) wi ri e l') :
    l'.Stranded capacity ∧ e ≠ .write .top := by
  obtain ⟨hwriter', hroom'⟩ := hstranded
  have hqueued := hsound.queued_le
  cases hmoves with
  | beginClose hwriter | beginWrite hwriter | endClose hwriter => simp_all
  | deliver n hreader | leave hreader | beginRead hreader | endRead hreader
  | endOfStream hreader =>
      refine ⟨⟨hwriter', hroom'.imp_right ?_⟩, by simp⟩
      rintro ⟨hgone, -⟩
      simp [hreader, ReadLoop.finished] at hgone
  | endWrite hwriter hdone =>
      exfalso
      have hsent : l.pipe.unsent = 0 := Nat.le_zero.mp hdone
      rcases hroom' with hzero | ⟨-, hfull⟩
      · have hpending := hsound.blocked hzero hwriter
        omega
      · omega
  | accept n hpos hunsent hroom =>
      refine ⟨⟨hwriter', hroom'.imp_right ?_⟩, by simp⟩
      rintro ⟨hgone, hfull⟩
      refine ⟨hgone, ?_⟩
      simp only
      omega

end

end Lane

namespace Duplex

/-- Channels of the given capacities between two ends with their own `DATA_SIZE`. -/
def bounded (dataSize capacity : Side → Nat) : DuplexConfig where
  dataSize := dataSize
  limits side := ⟨some (capacity side), some 0⟩

theorem bounded_lane (dataSize capacity : Side → Nat) (w : Side) :
    (bounded dataSize capacity).lane w =
      Lane.boundedConfig (dataSize w) (dataSize w.other) (capacity w) := rfl

/-- The futures of both handlers have resolved. -/
def Finished (d : Duplex) : Prop := ∀ side, (d.handler side).resolved = true

/-- The connection is over, or one of its four loops can take a step. -/
def Live (cfg : DuplexConfig) (d : Duplex) : Prop :=
  d.Finished ∨ ∃ writer e, (d.step cfg (.lane writer e)).isSome = true

/-- The step strands a write (`Lane.Strands`). -/
def Strands (dataSize capacity : Side → Nat) (d : Duplex) : DuplexEvent → Prop
  | .lane writer e => (d.lane writer).Strands (dataSize writer) (capacity writer)
      (d.interrupted writer) (d.interrupted writer.other) e
  | .stop _ => False

instance (dataSize capacity : Side → Nat) (d : Duplex) (e : DuplexEvent) :
    Decidable (Strands dataSize capacity d e) :=
  match e with
  | .lane _ _ => inferInstanceAs (Decidable (Lane.Strands _ _ _ _ _ _))
  | .stop _ => inferInstanceAs (Decidable False)

section

variable {dataSize capacity : Side → Nat} {d d' : Duplex}

theorem reachable_sound (hsize : ∀ side, 0 < dataSize side)
    (h : (system (bounded dataSize capacity)).Reachable d) (writer : Side) :
    (d.lane writer).Sound (dataSize writer) (dataSize writer.other) (capacity writer) :=
  lane_invariant (fun w l => l.Sound (dataSize w) (dataSize w.other) (capacity w))
    (fun _ => Lane.sound_start _ _ _)
    (fun w _ _ _ _ _ => Lane.sound_moves (hsize w) (hsize w.other)) h writer

theorem live_of_not_stranded
    (hsound : ∀ w, (d.lane w).Sound (dataSize w) (dataSize w.other) (capacity w))
    (hfree : ∀ w, ¬(d.lane w).Stranded (capacity w)) : Live (bounded dataSize capacity) d := by
  by_cases hfinished : d.Finished
  · exact Or.inl hfinished
  · right
    obtain ⟨w, hbusy⟩ : ∃ w, (d.lane w).writer.finished = false ∨
        (d.lane w).reader.finished = false := by
      simp only [Finished, handler, Handler.resolved, not_forall, Bool.and_eq_true, not_and_or,
        Bool.not_eq_true] at hfinished
      obtain ⟨side, hwriter | hreader⟩ := hfinished
      · exact ⟨side, Or.inl hwriter⟩
      · exact ⟨side.other, Or.inr hreader⟩
    obtain ⟨e, he⟩ := Lane.enabled_of_not_stranded (hsound w) (hfree w) hbusy
      (d.interrupted w) (d.interrupted w.other)
    exact ⟨w, e, by rwa [step, Option.isSome_map]⟩

theorem not_live_of_stranded {w : Side} (hstranded : (d.lane w).Stranded (capacity w))
    (hdry : ∀ writer e, d.step (bounded dataSize capacity) (.lane writer e) = none) :
    ¬Live (bounded dataSize capacity) d := by
  rintro (hfinished | ⟨writer, e, he⟩)
  · have hresolved := hfinished w
    simp [handler, Handler.resolved, hstranded.1, WriteLoop.finished] at hresolved
  · rw [hdry] at he
    cases he

/-- Only `stop()` makes a reading loop leave without the end of its stream. -/
theorem reachable_left (cfg : DuplexConfig) (h : (system cfg).Reachable d) :
    ∀ w, (d.lane w).reader = .stopped false → d.interrupted w.other = true := by
  apply System.Reachable.invariant
    (fun d => ∀ w, (d.lane w).reader = .stopped false → d.interrupted w.other = true) ?_ ?_ h
  · intro w hreader
    cases hreader
  · intro d e d' hinv hstep w hreader
    cases e with
    | stop side =>
        change d.step cfg (.stop side) = some d' at hstep
        obtain rfl := step_stop hstep
        by_cases hside : w.other = side
        · simp [hside]
        · simpa [Function.update_of_ne hside] using hinv w hreader
    | lane w' e =>
        obtain ⟨l, hmoves, rfl⟩ := step_lane hstep
        by_cases hw : w = w'
        · subst w'
          simp only [Function.update_self] at hreader
          cases hmoves with
          | leave hreader' hflag => exact hflag
          | beginRead | endRead | endOfStream => cases hreader
          | beginClose | beginWrite | endWrite | endClose | accept | deliver =>
              exact hinv w hreader
        · exact hinv w (by simpa [Function.update_of_ne hw] using hreader)

/-- A step that strands a write leaves it stranded, with its reading end stopped unless the channel
takes nothing at all. -/
theorem stranded_of_strands (h : (system (bounded dataSize capacity)).Reachable d)
    (hsound : ∀ w, (d.lane w).Sound (dataSize w) (dataSize w.other) (capacity w)) {e : DuplexEvent}
    (hstrands : Strands dataSize capacity d e)
    (hstep : d.step (bounded dataSize capacity) e = some d') :
    ∃ w, (d'.lane w).Stranded (capacity w) ∧
      (capacity w = 0 ∨ d'.interrupted w.other = true) := by
  cases e with
  | stop side => exact hstrands.elim
  | lane w e =>
      obtain ⟨l, hmoves, rfl⟩ := step_lane hstep
      refine ⟨w, ?_⟩
      simp only [Strands] at hstrands
      simp only [Function.update_self]
      cases hmoves with
      | leave hreader hflag => exact ⟨⟨hstrands.2.1, Or.inr ⟨rfl, hstrands.2.2⟩⟩, Or.inr hflag⟩
      | beginClose hwriter hflag => rw [hstrands.1] at hflag; cases hflag
      | beginRead hreader hflag => rw [hstrands.1] at hflag; cases hflag
      | beginWrite hwriter hflag =>
          rcases hstrands.2 with hzero | ⟨hgone, hroom⟩
          · exact ⟨⟨rfl, Or.inl hzero⟩, Or.inl hzero⟩
          · have hunsent := (hsound w).flushed (by simp [hwriter])
            refine ⟨⟨rfl, Or.inr ⟨hgone, ?_⟩⟩, Or.inr (reachable_left _ h w ?_)⟩
            · simpa [Pipe.write, hunsent, bounded_lane, Lane.boundedConfig] using hroom
            · cases hreader : (d.lane w).reader with
              | top | reading => simp [hreader, ReadLoop.finished] at hgone
              | failed => exact absurd hreader (hsound w).reader_ok
              | stopped endOfStream =>
                  cases endOfStream with
                  | false => rfl
                  | true =>
                      have hclosed := ((hsound w).accounted.ended hreader).1
                      have hstopped := (hsound w).accounted.closed_iff.mp hclosed
                      rw [hwriter] at hstopped
                      cases hstopped
      | endWrite | endClose | accept | deliver | endRead | endOfStream => exact hstrands.elim

/-- From a state with a stranded write whose reading end is stopped, the loops run dry with the
write still pending. -/
theorem stuck_of_stranded (hsize : ∀ side, 0 < dataSize side)
    (hsound : ∀ w, (d.lane w).Sound (dataSize w) (dataSize w.other) (capacity w)) {w : Side}
    (hstranded : (d.lane w).Stranded (capacity w)) (hflag : d.interrupted w.other = true) :
    ∃ es t, (system (bounded dataSize capacity)).exec d es = some t ∧
      (∀ e ∈ es, ∃ writer f, e = .lane writer f) ∧ ¬Live (bounded dataSize capacity) t := by
  obtain ⟨es, t, hkind, hexec, ⟨-, ht, -⟩, hdry⟩ := System.exists_exhausted
    (S := system (bounded dataSize capacity))
    (fun e => ∃ writer f, e = .lane writer f)
    (fun t => (∀ w, (t.lane w).Sound (dataSize w) (dataSize w.other) (capacity w)) ∧
      (t.lane w).Stranded (capacity w) ∧ t.interrupted w.other = true)
    (fun t => (t.lane w).remaining + (t.lane w.other).remaining)
    (by
      rintro s e t ⟨hsound, hstranded, hflag⟩ ⟨writer, f, rfl⟩ hstep
      obtain ⟨l, hmoves, rfl⟩ := step_lane hstep
      have hsound' := Lane.sound_moves (hsize writer) (hsize writer.other) (hsound writer) hmoves
      refine ⟨⟨?_, ?_, hflag⟩, ?_⟩
      · intro v
        by_cases hv : v = writer
        · subst v
          simpa using hsound'
        · simpa [Function.update_of_ne hv] using hsound v
      · by_cases hw : w = writer
        · subst writer
          simpa using (Lane.stranded_moves (hsound w) hstranded hmoves).1
        · simpa [Function.update_of_ne hw] using hstranded
      · by_cases hw : w = writer
        · subst writer
          have hlt := Lane.remaining_lt hmoves
            fun h => absurd h (Lane.stranded_moves (hsound w) hstranded hmoves).2
          simpa using hlt
        · obtain rfl : writer = w.other := by cases w <;> cases writer <;> simp_all [Side.other]
          have hlt := Lane.remaining_lt hmoves fun _ => hflag
          simpa [Function.update_of_ne hw] using hlt)
    ⟨hsound, hstranded, hflag⟩
  exact ⟨es, t, hexec, hkind, not_live_of_stranded ht fun writer e => hdry _ ⟨writer, e, rfl⟩⟩

/-- A connection is live in every state of a run that strands no write. -/
theorem live_of_no_strand (hsize : ∀ side, 0 < dataSize side) {es : List DuplexEvent}
    (hes : (system (bounded dataSize capacity)).EachStep
      (fun d e => ¬Strands dataSize capacity d e) start es) :
    (system (bounded dataSize capacity)).Always (Live (bounded dataSize capacity)) start es := by
  intro pre hpre t ht
  have hboth := System.EachStep.invariant
    (fun d => (system (bounded dataSize capacity)).Reachable d ∧
      ∀ w, ¬(d.lane w).Stranded (capacity w)) ?_ ?_ (hes.restrict hpre) ht
  · exact live_of_not_stranded (reachable_sound hsize hboth.1) hboth.2
  · rintro d e d' ⟨hreach, hfree⟩ hcond hstep
    refine ⟨hreach.step hstep, fun w => ?_⟩
    cases e with
    | stop side =>
        change d.step (bounded dataSize capacity) (.stop side) = some d' at hstep
        obtain rfl := step_stop hstep
        exact hfree w
    | lane writer e =>
        obtain ⟨l, hmoves, rfl⟩ := step_lane hstep
        by_cases hw : w = writer
        · subst w
          simp only [Function.update_self]
          intro hstranded
          rcases Lane.stranded_of_moves (hsize writer.other) (reachable_sound hsize hreach writer)
            hmoves hstranded with hbefore | hstrands
          · exact hfree writer hbefore
          · exact hcond hstrands
        · simpa [Function.update_of_ne hw] using hfree w
  · refine ⟨.init _, fun w => ?_⟩
    rintro ⟨hwriting, -⟩
    cases hwriting

/-- A step that strands a write leads to a stuck state by steps of the loops; only where a channel
takes nothing at all, its reading end has to be stopped as well. -/
theorem stuck_of_strands (hsize : ∀ side, 0 < dataSize side) {e : DuplexEvent}
    (hreach : (system (bounded dataSize capacity)).Reachable d)
    (hstrands : Strands dataSize capacity d e)
    (hstep : d.step (bounded dataSize capacity) e = some d') :
    ∃ es t, (system (bounded dataSize capacity)).exec d' es = some t ∧
      (∀ f ∈ es, (∃ writer g, f = .lane writer g) ∨ ∃ w, capacity w = 0 ∧ f = .stop w.other) ∧
      ¬Live (bounded dataSize capacity) t := by
  have hsound := reachable_sound hsize hreach
  have hreach' := hreach.step hstep
  obtain ⟨w, hstranded, hzero | hflag⟩ := stranded_of_strands hreach hsound hstrands hstep
  · let s : Duplex := { d' with interrupted := Function.update d'.interrupted w.other true }
    have hstop : (system (bounded dataSize capacity)).step d' (.stop w.other) = some s := rfl
    obtain ⟨es, t, hexec, hkind, hstuck⟩ := stuck_of_stranded (d := s) hsize
      (reachable_sound hsize (hreach'.step hstop)) hstranded (by simp [s])
    refine ⟨.stop w.other :: es, t, ?_, ?_, hstuck⟩
    · rw [System.exec_cons, hstop]
      exact hexec
    · intro f hf
      rcases List.mem_cons.mp hf with rfl | hf
      · exact Or.inr ⟨w, hzero, rfl⟩
      · exact Or.inl (hkind f hf)
  · obtain ⟨es, t, hexec, hkind, hstuck⟩ :=
      stuck_of_stranded hsize (reachable_sound hsize hreach') hstranded hflag
    exact ⟨es, t, hexec, fun f hf => Or.inl (hkind f hf), hstuck⟩

/-- A run that strands no write is live throughout; and a step that strands one leads to a state in
which a handler is unfinished and no loop can move. -/
theorem live_unless_strands (hsize : ∀ side, 0 < dataSize side) :
    (∀ es, (system (bounded dataSize capacity)).EachStep
        (fun d e => ¬Strands dataSize capacity d e) start es →
      (system (bounded dataSize capacity)).Always (Live (bounded dataSize capacity)) start es) ∧
    (∀ d e d', (system (bounded dataSize capacity)).Reachable d →
      Strands dataSize capacity d e → d.step (bounded dataSize capacity) e = some d' →
      ∃ es t, (system (bounded dataSize capacity)).exec d' es = some t ∧
        (∀ f ∈ es, (∃ writer g, f = .lane writer g) ∨ ∃ w, capacity w = 0 ∧ f = .stop w.other) ∧
        ¬Live (bounded dataSize capacity) t) :=
  ⟨fun _ => live_of_no_strand hsize, fun _ _ _ => stuck_of_strands hsize⟩

end

/-! ### A clean shutdown and a stuck connection

Both ends with the default `DATA_SIZE` over channels of one packet each, both of them stopped. When
no write is pending by then, the connection ends cleanly. When both channels are full and both
writes pending, both reading loops leave nevertheless, and neither handler can go on. -/

def defaultPackets : DuplexConfig := bounded (fun _ => 64) (fun _ => 64)

/-- What the two calls of `handle_connection` run. -/
def firstTurns : List DuplexEvent :=
  [.lane .client (.write .top), .lane .server (.read .top), .lane .server (.write .top),
    .lane .client (.read .top)]

/-- One packet of this end is written and read. -/
def onePacket (writer : Side) : List DuplexEvent :=
  [.lane writer (.accept 64), .lane writer (.write .written), .lane writer (.deliver 64),
    .lane writer (.read (.read 64))]

/-- Each end sends one packet; the client's reading loop, once more in `read_exactly`, sees the end
of the stream, the other loops see the flag. -/
def cleanShutdown : List DuplexEvent :=
  firstTurns ++ onePacket .client ++ onePacket .server ++
    [.lane .server (.read .top), .stop .client, .stop .server, .lane .client (.write .top),
      .lane .client (.write .closed), .lane .server (.write .top), .lane .server (.write .closed),
      .lane .client (.read .top), .lane .server (.read (.read 0))]

theorem live_unless_strands_cleanShutdown :
    (system defaultPackets).Always (Live defaultPackets) start cleanShutdown :=
  (live_unless_strands (fun _ => by decide)).1 cleanShutdown (by decide +kernel)

/-- Between two turns of the other end's reading loop, this end writes a packet into the channel and
begins the next one. -/
def fillChannel (writer : Side) : List DuplexEvent :=
  [.lane writer (.write .top), .lane writer (.accept 64), .lane writer (.write .written),
    .lane writer (.write .top)]

def stopBoth : List DuplexEvent :=
  firstTurns ++ onePacket .client ++ onePacket .server ++ fillChannel .client ++
    fillChannel .server ++
    [.stop .client, .stop .server, .lane .client (.read .top), .lane .server (.read .top)]

def afterStopBoth : Duplex :=
  ((system defaultPackets).exec start stopBoth).get (by decide +kernel)

theorem stop_both_deadlocks :
    ¬∀ d, (system defaultPackets).Reachable d → Live defaultPackets d := by
  intro hlive
  have hreach : (system defaultPackets).Reachable afterStopBoth :=
    ⟨stopBoth, (Option.some_get _).symm⟩
  have hlane : ∀ w, (afterStopBoth.lane w).writer = .writing ∧
      (afterStopBoth.lane w).reader = .stopped false ∧
      (afterStopBoth.lane w).pipe = ⟨64, 64, 0, false⟩ := by
    intro w
    cases w <;> decide +kernel
  have hstranded : (afterStopBoth.lane .client).Stranded 64 := by
    obtain ⟨hwriter, hreader, hpipe⟩ := hlane .client
    rw [Lane.Stranded, hwriter, hreader, hpipe]
    decide
  apply not_live_of_stranded hstranded (fun writer e => ?_) (hlive _ hreach)
  rw [Option.eq_none_iff_forall_ne_some]
  intro d' hstep
  obtain ⟨l, hmoves, -⟩ := step_lane hstep
  obtain ⟨hwriter, hreader, hpipe⟩ := hlane writer
  cases hmoves <;> simp_all [defaultPackets, bounded_lane, Lane.boundedConfig, Pipe.Flushed]

end Duplex

end SeastarExperiments
