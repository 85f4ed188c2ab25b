import SeastarExperiments.ServiceMeasurement
import SeastarExperiments.TcpConnection

/-! What a stuck connection does to the two processes around it. A write that is stranded stays so
whatever both processes still do, unless it fails: a client never gets to its report, and the gate of
the server's shard never closes. -/

namespace SeastarExperiments

open ByteStream Transition

namespace Duplex

variable {dataSize capacity : Side → Nat} {D D' : Duplex}

/-- A stranded write stays stranded. -/
theorem stranded_exec (hsize : ∀ side, 0 < dataSize side)
    (hreach : (system (bounded dataSize capacity)).Reachable D) {w : Side}
    (hstranded : (D.lane w).Stranded (capacity w)) {es : List DuplexEvent}
    (h : (system (bounded dataSize capacity)).exec D es = some D') :
    (D'.lane w).Stranded (capacity w) := by
  have hboth := System.exec_invariant (S := system (bounded dataSize capacity))
    (fun D => (system (bounded dataSize capacity)).Reachable D ∧
      (D.lane w).Stranded (capacity w)) ?_ ⟨hreach, hstranded⟩ h
  · exact hboth.2
  rintro D e D' ⟨hD, hheld⟩ hstep
  refine ⟨hD.step hstep, ?_⟩
  cases e with
  | stop side =>
      change D.step (bounded dataSize capacity) (.stop side) = some D' at hstep
      rw [step_stop hstep]
      exact hheld
  | lane v e =>
      obtain ⟨l, hmoves, rfl⟩ := step_lane hstep
      by_cases hw : w = v
      · subst hw
        simpa using (Lane.stranded_moves (reachable_sound hsize hD w) hheld hmoves).1
      · simpa [Function.update_of_ne hw] using hheld

end Duplex

namespace TcpExchange

variable {shards : Side → Nat} {cfg : TcpConfig} {capacity : Side → Nat}
  {d d' : TcpExchange Handler shards} {link : TcpLink shards} {c : Nat}
  {es fs : List (TcpExchangeEvent shards)}

/-- The write pending at this end does not fit into the channel, and the loop at the other end that
should empty the channel is over; or the channel takes nothing at all. -/
def Stranded (capacity : Side → Nat) (d : TcpExchange Handler shards) (link : TcpLink shards)
    (w : Side) : Prop :=
  (handlersOf d link w).writer = .writing ∧
    (capacity w = 0 ∨ ((handlersOf d link w.other).reader.finished = true ∧
      capacity w < (link.stream w).pipe.queued + (link.stream w).pipe.unsent))

instance (link : TcpLink shards) (w : Side) : Decidable (Stranded capacity d link w) :=
  inferInstanceAs (Decidable (_ ∧ (_ ∨ (_ ∧ _))))

theorem Shown.stranded_iff {D : Duplex} (h : Shown cfg d link D) {w : Side} :
    (D.lane w).Stranded (capacity w) ↔ Stranded capacity d link w := by
  have hlane := h.shows w
  rw [Lane.Stranded, Stranded, hlane.writer, hlane.reader, hlane.pipe]

theorem toDuplexConfig_eq (hlimits : ∀ side, cfg.limits side = ⟨some (capacity side), some 0⟩) :
    cfg.toDuplexConfig = Duplex.bounded cfg.dataSize capacity := by
  rw [Duplex.bounded, ← funext hlimits]

/-- A connection that is stranded once is stranded for ever. -/
theorem stranded_forever (hsize : ∀ side, 0 < cfg.dataSize side)
    (hlimits : ∀ side, cfg.limits side = ⟨some (capacity side), some 0⟩)
    (h : (system duplexClient cfg).exec (start duplexClient cfg) es = some d)
    (hok : (system duplexClient cfg).EachStep (fun d e => d.fails c e = false)
      (start duplexClient cfg) es) (hlink : d.links[c]? = some link) {w : Side}
    (hstranded : Stranded capacity d link w)
    (hok' : (system duplexClient cfg).EachStep (fun d e => d.fails c e = false) d fs)
    (h' : (system duplexClient cfg).exec d fs = some d') :
    ∃ link', d'.links[c]? = some link' ∧ Stranded capacity d' link' w := by
  obtain ⟨-, D, -, hD⟩ := follows (follows_start cfg c) hok h
  obtain ⟨gs, D', hgs, hD'⟩ := follows hD hok' h'
  have hshown := hD.shown link hlink
  have hreach := hshown.reachable
  have hheld := hshown.stranded_iff.mpr hstranded
  rw [toDuplexConfig_eq hlimits] at hreach hgs
  have hfinal := Duplex.stranded_exec hsize hreach hheld hgs
  cases hlink' : d'.links[c]? with
  | none =>
      rw [hD'.fresh hlink'] at hfinal
      cases hfinal.1
  | some link' => exact ⟨link', rfl, (hD'.shown link' hlink').stranded_iff.mp hfinal⟩

/-- Neither process comes to its end around a stranded write: a client never reads the history of
any shard, and on some shard of the server the gate stays open. -/
theorem never_ends_of_stranded (hsize : ∀ side, 0 < cfg.dataSize side)
    (hlimits : ∀ side, cfg.limits side = ⟨some (capacity side), some 0⟩)
    (h : (system duplexClient cfg).exec (start duplexClient cfg) es = some d)
    (hok : (system duplexClient cfg).EachStep (fun d e => d.fails c e = false)
      (start duplexClient cfg) es) (hlink : d.links[c]? = some link) {w : Side}
    (hstranded : Stranded capacity d link w)
    (hok' : (system duplexClient cfg).EachStep (fun d e => d.fails c e = false) d fs)
    (h' : (system duplexClient cfg).exec d fs = some d') :
    match w with
    | .client => ∀ i, d'.client.snapshots i = none
    | .server => ∃ i, (d'.server.shard i).stopFuture ≠ .resolved := by
  obtain ⟨link', hlink', hheld⟩ := stranded_forever hsize hlimits h hok hlink hstranded hok' h'
  have hrun := System.exec_trans _ h h'
  cases w with
  | client =>
      intro i
      by_contra hread
      have hcomplete :=
        Process.ended_of_snapshot ClientShard.phases (projects_client.exec hrun) hread link'.task.1
      have hwriting := hheld.1
      cases htask : Client.taskAt d'.client link'.task with
      | none => simp [handlersOf, htask] at hwriting
      | some task =>
          have hresolved := hcomplete.finished task (List.mem_of_getElem? htask)
          simp only [handlersOf, htask, Option.elim_some] at hwriting
          unfold ClientTask.resolved at hresolved
          cases hphase : task.phase with
          | connecting | connectFailed => simp [hphase, ClientPhase.handler] at hwriting
          | handling handler =>
              rw [hphase] at hresolved hwriting
              have hfinished := duplexWrites.resolved handler hresolved
              change handler.writer = .writing at hwriting
              change handler.writer.finished = true at hfinished
              rw [hwriting] at hfinished
              cases hfinished
  | server =>
      have hwriting := hheld.1
      cases hsite : link'.site with
      | listening | destroyed => simp [handlersOf, hsite] at hwriting
      | handler x =>
          refine ⟨x.1, fun hfuture => ?_⟩
          have hconsistent := Server.consistent ⟨_, projects_server.exec hrun⟩ x.1
          have hall := hconsistent.resolved_of_stopFuture hfuture
          cases hhandler : handlerAt d'.server x with
          | none => simp [handlersOf, hsite, hhandler] at hwriting
          | some handler =>
              have hfinished :=
                ServerConnection.writer_finished (hall handler (List.mem_of_getElem? hhandler))
              simp only [handlersOf, hsite, TcpSite.place_handler, Option.bind_some, hhandler,
                Option.elim_some]
                at hwriting
              rw [hwriting] at hfinished
              cases hfinished

end TcpExchange

end SeastarExperiments
