import SupplyChain.Resp.Connection
import Mathlib.Data.List.Nodup

/-!
# Proofs: who is left on a closed connection

A call is in one place at a time: before its write, in the queue, or settled. The close empties the queue,
and from then on only a write puts a call there.
-/

namespace SupplyChain

namespace AnyBytes

namespace RawRespClient

/-- What a call of `onData` does to the queue: it settles the calls at its front. -/
structure Shifts (c c' : RawRespClient) : Prop where
  calls : c'.settled.map Prod.fst ++ c'.pending = c.settled.map Prod.fst ++ c.pending

theorem Shifts.refl (c : RawRespClient) : Shifts c c := ⟨rfl⟩

theorem Shifts.trans {c c' c'' : RawRespClient} (h : Shifts c c') (h' : Shifts c' c'') : Shifts c c'' :=
  ⟨h'.calls.trans h.calls⟩

theorem shifts_settle (c : RawRespClient) (settlement : Settlement) : Shifts c (c.settle settlement) := by
  unfold settle
  split
  · exact .refl c
  · rename_i call pending hpending
    exact ⟨by simp [hpending]⟩

theorem shifts_progress {fuel : Nat} {c c' : RawRespClient} (h : progress fuel c = some c') : Shifts c c' := by
  induction fuel generalizing c with
  | zero => cases h
  | succ fuel ih =>
    rw [progress] at h
    split at h
    · cases h
    · obtain rfl := Option.some.inj h
      exact .refl _
    · rename_i message _
      cases h
      exact ⟨(shifts_settle c.clear (.rejected message)).calls⟩
    · rename_i value consumed _
      have hsettle := shifts_settle (c.consume consumed) (settlement value)
      exact ⟨(hsettle.trans (ih h)).calls⟩

theorem shifts_onData {fuel : Nat} {c c' : RawRespClient} {chunk : Buffer}
    (h : onData fuel c chunk = some (.returns c')) : Shifts c c' := by
  unfold onData at h
  split at h
  · cases h
  · obtain ⟨c'', hprogress, hreturns⟩ := Option.map_eq_some_iff.mp h
    cases hreturns
    exact ⟨(shifts_progress hprogress).calls⟩

theorem shifts_failAllPending (c : RawRespClient) (message : List Char) : Shifts c (c.failAllPending message) :=
  ⟨by simp [failAllPending, Function.comp_def]⟩

end RawRespClient

namespace Connection

/-! ## A call is in one place -/

/-- The calls, wherever they are. -/
def all (c : Connection) : List Nat :=
  c.waiting.map Waiting.call ++ (c.client.settled.map Prod.fst ++ c.client.pending)

theorem perm_all {c c' : Connection} {event : ConnectionEvent} (h : c.Step event c') :
    c'.calls = c.calls ∧ c'.all.Perm c.all ∨ c'.calls = c.calls + 1 ∧ c'.all.Perm (c.calls :: c.all) := by
  cases h with
  | send args =>
    refine Or.inr ⟨rfl, List.perm_iff_count.mpr fun call => ?_⟩
    simp only [all, Connection.send, List.map_append, List.map_cons, List.map_nil, List.count_append,
      List.count_cons, List.count_nil]
    omega
  | write hready hwaiting =>
    refine Or.inl ⟨rfl, List.perm_iff_count.mpr fun call => ?_⟩
    simp only [all, Connection.write, hwaiting, List.map_append, List.map_cons, List.count_append,
      List.count_cons, List.count_nil]
    omega
  | refuse hready hwaiting =>
    refine Or.inl ⟨rfl, List.perm_iff_count.mpr fun call => ?_⟩
    simp only [all, Connection.refuse, hwaiting, List.map_append, List.map_cons, List.map_nil,
      List.count_append, List.count_cons, List.count_nil]
    omega
  | connect => exact Or.inl ⟨rfl, .refl _⟩
  | data _ hdata =>
    have hcalls := (RawRespClient.shifts_onData hdata).calls
    exact Or.inl ⟨rfl, .of_eq (congrArg (c.waiting.map Waiting.call ++ ·) hcalls)⟩
  | error _ message =>
    exact Or.inl ⟨rfl, .of_eq (congrArg (c.waiting.map Waiting.call ++ ·)
      (RawRespClient.shifts_failAllPending c.client message).calls)⟩
  | close =>
    exact Or.inl ⟨rfl, .of_eq (congrArg (c.waiting.map Waiting.call ++ ·)
      (RawRespClient.shifts_failAllPending c.client _).calls)⟩

theorem all_nodup {events : List ConnectionEvent} {c : Connection} (h : Run events c) :
    c.all.Nodup ∧ ∀ call ∈ c.all, call < c.calls := by
  induction h with
  | start => exact ⟨List.nodup_nil, fun _ hcall => absurd hcall List.not_mem_nil⟩
  | step hrun hstep ih =>
    obtain ⟨hnodup, hbound⟩ := ih
    obtain ⟨hcalls, hperm⟩ | ⟨hcalls, hperm⟩ := perm_all hstep
    · exact ⟨hperm.nodup_iff.mpr hnodup, fun call hcall => hcalls ▸ hbound call (hperm.mem_iff.mp hcall)⟩
    · refine ⟨hperm.nodup_iff.mpr (List.nodup_cons.mpr ⟨fun hmem => ?_, hnodup⟩), fun call hcall => ?_⟩
      · exact Nat.lt_irrefl _ (hbound _ hmem)
      · rw [hcalls]
        obtain rfl | hold := List.mem_cons.mp (hperm.mem_iff.mp hcall)
        · exact Nat.lt_succ_self _
        · exact Nat.lt_succ_of_lt (hbound call hold)

theorem settled_once {events : List ConnectionEvent} {c : Connection} (h : Run events c) :
    (c.client.settled.map Prod.fst).Nodup :=
  ((all_nodup h).1.of_append_right).of_append_left

/-! ## The queue of a closed connection -/

theorem writesAfterClose_append {events : List ConnectionEvent} {event : ConnectionEvent} :
    WritesAfterClose (events ++ [event]) ↔
      WritesAfterClose events ∨ .close ∈ events ∧ ∃ call, event = .write call := by
  constructor
  · rintro ⟨before, after, call, hevents, hcall⟩
    obtain rfl | ⟨after, last, rfl⟩ := List.eq_nil_or_concat' after
    · cases hcall
    have hsplit : events ++ [event] = (before ++ .close :: after) ++ [last] := by
      rw [hevents]
      simp
    obtain ⟨rfl, hlast⟩ := List.append_inj' hsplit rfl
    obtain rfl := List.singleton_inj.mp hlast
    obtain hcall | hcall := List.mem_append.mp hcall
    · exact Or.inl ⟨before, after, call, rfl, hcall⟩
    · exact Or.inr ⟨by simp, call, (List.mem_singleton.mp hcall).symm⟩
  · rintro (⟨before, after, call, rfl, hcall⟩ | ⟨hclose, call, rfl⟩)
    · exact ⟨before, after ++ [event], call, by simp, List.mem_append_left _ hcall⟩
    · obtain ⟨before, after, rfl⟩ := List.append_of_mem hclose
      exact ⟨before, after ++ [.write call], call, by simp, by simp⟩

/-- Nothing has been written after a close that has not come. -/
theorem not_writesAfterClose {events : List ConnectionEvent} (h : .close ∉ events) :
    ¬ WritesAfterClose events := by
  rintro ⟨before, after, call, rfl, -⟩
  exact h (by simp)

theorem closed_iff {events : List ConnectionEvent} {c : Connection} (h : Run events c) :
    c.closed = true ↔ .close ∈ events := by
  induction h with
  | start => simp [new]
  | step hrun hstep ih =>
    cases hstep <;> simp_all [send, write, refuse, onConnect, onError, onClose]

/-- Calls are in the queue of a closed connection if and only if they were written after the close. -/
theorem pending_nil_iff {events : List ConnectionEvent} {c : Connection} (h : Run events c)
    (hclosed : c.closed = true) : c.client.pending = [] ↔ ¬ WritesAfterClose events := by
  induction h with
  | start => cases hclosed
  | @step events event c c' hrun hstep ih =>
    rw [writesAfterClose_append]
    have hclose := closed_iff hrun
    have hquiet : c.closed = false → ¬ WritesAfterClose events := fun hopen =>
      not_writesAfterClose fun hmem => absurd (hclose.mpr hmem) (by simp [hopen])
    cases hstep with
    | send args => simpa [Connection.send] using ih hclosed
    | @write before after w hready hwaiting =>
      have hmem := hclose.mp hclosed
      simp [Connection.write, hmem]
    | refuse => simpa [Connection.refuse] using ih hclosed
    | connect hopen => exact absurd hclosed (by simp [onConnect, hopen])
    | data hopen => exact absurd hclosed (by simp [hopen])
    | error hopen => exact absurd hclosed (by simp [onError, hopen])
    | close hopen => simp [onClose, RawRespClient.failAllPending, hquiet hopen]

/-- On a connection nobody is left after the close, and every call is settled at most once, if and only if no
call that had passed its `await` wrote its command after the close. -/
theorem nobodyStranded_iff {events : List ConnectionEvent} {c : Connection} (h : Run events c) :
    c.NobodyStranded ↔ (c.closed = true → c.waiting = [] → ¬ WritesAfterClose events) := by
  constructor
  · intro hsound hclosed hwaiting
    exact (pending_nil_iff h hclosed).mp (hsound.pending_nil hclosed hwaiting)
  · intro hquiet
    exact ⟨settled_once h, fun hclosed hwaiting => (pending_nil_iff h hclosed).mpr (hquiet hclosed hwaiting)⟩

/-! ## Two connections -/

/-- Two calls, one before the socket has connected and one after; the socket closes before the replies. -/
def lateClose : Connection :=
  ((((new.send []).onConnect.write [] ⟨0, []⟩ []).send []).write [] ⟨1, []⟩ []).onClose

theorem lateClose_run : Run [.send [], .connect, .write 0, .send [], .write 1, .close] lateClose :=
  .step (.step (.step (.step (.step (.step .start (.send [])) (.connect rfl)) (.write rfl rfl)) (.send []))
    (.write rfl rfl)) (.close rfl)

theorem lateClose_nobodyStranded : lateClose.NobodyStranded :=
  (nobodyStranded_iff lateClose_run).mpr fun _ _ => by
    have hevents : [.send [], .connect, .write 0, .send [], .write 1, .close] =
      [.send [], .connect, .write 0, .send [], .write 1] ++ [ConnectionEvent.close] := rfl
    rw [hevents, writesAfterClose_append]
    rintro (hbefore | ⟨-, call, hcall⟩)
    · exact not_writesAfterClose (by simp) hbefore
    · cases hcall

/-- The socket connects and closes, and then a call is made. -/
def callAfterClose : Connection := (new.onConnect.onClose.send []).write [] ⟨0, []⟩ []

theorem callAfterClose_stranded :
    Run [.connect, .close, .send [], .write 0] callAfterClose ∧ callAfterClose.closed = true ∧
      callAfterClose.waiting = [] ∧ callAfterClose.client.pending = [0] ∧ ¬ callAfterClose.NobodyStranded := by
  refine ⟨.step (.step (.step (.step .start (.connect rfl)) (.close rfl)) (.send []))
    (@Step.write _ [] [] ⟨0, []⟩ rfl rfl), rfl, rfl, rfl, fun h => ?_⟩
  cases h.pending_nil rfl rfl

end Connection

end AnyBytes

end SupplyChain
