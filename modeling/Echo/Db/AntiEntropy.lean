import Echo.Db.LogRun

/-!
Anti-entropy: what one log offers another and what the other has after taking it.

Every entry of a reachable log starts its epoch or stands behind its predecessor
of the same origin, and every cursor is that of some entry. So the offer can be
taken in order without a gap, and afterwards the receiver has caught up.
-/

namespace Echo

open Std (ExtTreeMap)
open Echo.Lib

namespace EventLog

/-- Ingest some entries one by one. -/
def deliver (log : EventLog) (batch : List LogEntry) : EventLog :=
  batch.foldl (fun log entry => (log.ingest entry).1) log

/-! ### What every reachable log offers -/

/-- The entry starts its epoch or follows one of those before it. -/
def LinkedTo (before : List LogEntry) (entry : LogEntry) : Prop :=
  entry.isGlobal = true → entry.seq = 0 ∨
    ∃ p ∈ before, p.isGlobal = true ∧ p.origin = entry.origin ∧ p.epoch = entry.epoch ∧
      p.seq + 1 = entry.seq

/-- Every entry is linked to those before it. -/
def Linked (entries : List LogEntry) : Prop := Stepwise LinkedTo entries

/-- The log's offers have no gap, and its cursors are cursors of its entries. -/
structure Traceable (log : EventLog) : Prop where
  linked : Linked log.entries
  stamped : ∀ (origin : String) c, log.versions[origin]? = some c →
    ∃ e ∈ log.entries, e.isGlobal = true ∧ e.origin = origin ∧ e.cursor = c

section Step

variable {log : EventLog}

/-- The next entry may stand where the cursor held for its origin says. -/
theorem Traceable.linkedTo (h : Traceable log) {entry : LogEntry}
    (fits : follows log.versions[entry.origin]? entry.cursor = true) :
    LinkedTo log.entries entry := by
  intro _
  rw [follows_iff] at fits
  cases held : log.versions[entry.origin]? with
  | none =>
      rw [held] at fits
      exact .inl fits
  | some c =>
      rw [held] at fits
      obtain ⟨e, mem, global, origin, rfl⟩ := h.stamped entry.origin c held
      rcases fits with ⟨epoch, seq⟩ | ⟨_, seq⟩
      · exact .inr ⟨e, mem, global, origin, epoch, seq.symm⟩
      · exact .inl seq

/-- Adding an entry and moving the cursor of its origin to it. -/
theorem Traceable.push (h : Traceable log) {entry : LogEntry} (last : LinkedTo log.entries entry)
    {log' : EventLog} (entries : log'.entries = log.entries ++ [entry])
    (versions : log'.versions =
      if entry.isGlobal then log.versions.insert entry.origin entry.cursor else log.versions) :
    Traceable log' := by
  constructor
  · rw [entries]
    exact stepwise_concat.mpr ⟨h.linked, last⟩
  · intro origin c held
    rw [entries]
    rw [versions] at held
    split at held
    · rename_i global
      rw [ExtTreeMap.getElem?_insert] at held
      split at held
      · rename_i same
        cases held
        exact ⟨entry, List.mem_append_right _ List.mem_cons_self, global,
          Std.LawfulEqCmp.eq_of_compare same, rfl⟩
      · obtain ⟨e, mem, rest⟩ := h.stamped origin c held
        exact ⟨e, List.mem_append_left _ mem, rest⟩
    · obtain ⟨e, mem, rest⟩ := h.stamped origin c held
      exact ⟨e, List.mem_append_left _ mem, rest⟩

/-- A stamp is the next cursor of the log's own origin, or starts an epoch. -/
theorem Traceable.linkedTo_stamped (h : Traceable log) (event : Event) :
    LinkedTo log.entries (log.stamped event) := by
  intro global
  rw [LogEntry.isGlobal, stamped_event, Event.isGlobal_iff] at global
  have cursor : (log.stamped event).cursor = (log.epoch, log.nextSeq) := stamped_cursor global
  have epoch : (log.stamped event).epoch = log.epoch := congrArg Prod.fst cursor
  have seq : (log.stamped event).seq = log.nextSeq := congrArg Prod.snd cursor
  unfold nextSeq at seq
  cases held : log.versions[log.origin]? with
  | none =>
      rw [held] at seq
      exact .inl seq
  | some c =>
      obtain ⟨e, s⟩ := c
      rw [held] at seq
      dsimp only at seq
      split at seq
      · rename_i same
        obtain ⟨p, mem, pGlobal, origin, at_c⟩ := h.stamped log.origin (e, s) held
        have pEpoch : p.epoch = e := congrArg Prod.fst at_c
        have pSeq : p.seq = s := congrArg Prod.snd at_c
        refine .inr ⟨p, mem, pGlobal, ?_, ?_, ?_⟩
        · rw [origin, stamped_origin]
        · rw [pEpoch, same, epoch]
        · rw [pSeq, seq]
      · exact .inl seq

theorem Traceable.append (h : Traceable log) (event : Event) : Traceable (log.append event).1 := by
  rw [append_eq]
  split
  · refine h.push (h.linkedTo_stamped event) rfl ?_
    have global : (log.stamped event).isGlobal = true ↔ event.scope = .global := by
      rw [LogEntry.isGlobal, stamped_event, Event.isGlobal_iff]
    simp only [committed, global, stamped_origin]
    split
    · rename_i scope
      rw [stamped_cursor scope]
    · rfl
  · split
    · exact h
    · exact ⟨h.linked, h.stamped⟩

theorem Traceable.ingest (h : Traceable log) (entry : LogEntry) :
    Traceable (log.ingest entry).1 := by
  rw [ingest_eq]
  split
  · rename_i acceptable
    split
    · exact ⟨h.linked, h.stamped⟩
    · unfold EventLog.acceptable at acceptable
      simp only [Bool.and_eq_true] at acceptable
      refine h.push (h.linkedTo acceptable.2) rfl ?_
      rw [if_pos acceptable.1.1]
      rfl
  · exact h

/-- What a rewrite has written so far: linked, with the last Global entry's
cursor at hand. -/
structure Rewritten (log : EventLog) (epoch : Nat) (w : Rewrite) : Prop where
  linked : Linked w.snapshot
  next : w.seq = 0 ∨ ∃ p ∈ w.snapshot, p.isGlobal = true ∧ p.origin = log.origin ∧
    p.epoch = epoch ∧ p.seq + 1 = w.seq
  last : ∀ s, w.lastGlobal = some s →
    ∃ p ∈ w.snapshot, p.isGlobal = true ∧ p.origin = log.origin ∧ p.cursor = (epoch, s)

theorem Rewritten.one {epoch : Nat} {w : Rewrite} (h : Rewritten log epoch w) (event : Event) :
    Rewritten log epoch (log.rewriteOne epoch w event) := by
  unfold rewriteOne
  split
  · rename_i scope
    have global : event.isGlobal = true := Event.isGlobal_iff.mpr scope
    exact {
      linked := stepwise_concat.mpr ⟨h.linked, fun _ => h.next⟩
      next := .inr ⟨_, List.mem_append_right _ List.mem_cons_self, global, rfl, rfl, rfl⟩
      last := by
        intro s eq
        cases eq
        exact ⟨_, List.mem_append_right _ List.mem_cons_self, global, rfl, rfl⟩ }
  · rename_i scope
    have localEntry : event.isGlobal = false :=
      Bool.eq_false_iff.mpr fun h => scope (Event.isGlobal_iff.mp h)
    exact {
      linked := stepwise_concat.mpr
        ⟨h.linked, fun global => absurd (localEntry.symm.trans global) (by simp)⟩
      next := h.next.imp id fun ⟨p, mem, rest⟩ => ⟨p, List.mem_append_left _ mem, rest⟩
      last := fun s eq =>
        have ⟨p, mem, rest⟩ := h.last s eq
        ⟨p, List.mem_append_left _ mem, rest⟩ }

theorem rewritten_all (log : EventLog) (epoch : Nat) (events : List Event) {w : Rewrite}
    (h : Rewritten log epoch w) : Rewritten log epoch (events.foldl (log.rewriteOne epoch) w) := by
  induction events generalizing w with
  | nil => exact h
  | cons e events ih => exact ih (h.one e)

theorem Traceable.compact (h : Traceable log) (events : List Event) :
    Traceable (log.compact events).1 := by
  have written : Rewritten log (log.epoch + 1) (log.rewritten events) :=
    rewritten_all log _ events
      ⟨stepwise_nil, .inl rfl, fun _ none => by contradiction⟩
  rw [compact_eq]
  split
  · exact h
  · dsimp only
    split
    · exact ⟨h.linked, h.stamped⟩
    · refine ⟨written.linked, fun origin c held => ?_⟩
      cases last : (log.rewritten events).lastGlobal with
      | none =>
          rw [last] at held
          dsimp only at held
          rw [ExtTreeMap.getElem?_empty] at held
          contradiction
      | some s =>
          rw [last] at held
          dsimp only at held
          rw [ExtTreeMap.getElem?_insert] at held
          split at held
          · rename_i same
            cases held
            obtain ⟨p, mem, global, own, cursor⟩ := written.last s last
            have origin := Std.LawfulEqCmp.eq_of_compare same
            exact ⟨p, mem, global, own.trans origin, cursor⟩
          · rw [ExtTreeMap.getElem?_empty] at held
            contradiction

/-- A restart recovers cursors of the entries in the file. -/
theorem stamped_open (origin : String) (file : List LogEntry) :
    ∀ (o : String) c, (open' origin file).versions[o]? = some c →
      ∃ e ∈ file, e.isGlobal = true ∧ e.origin = o ∧ e.cursor = c := by
  induction file using List.reverseRecOn with
  | nil =>
      intro o c held
      rw [show (open' origin []).versions = ∅ from rfl, ExtTreeMap.getElem?_empty] at held
      contradiction
  | append_singleton file entry ih =>
      intro o c held
      have old : (open' origin file).versions[o]? = some c →
          ∃ e ∈ file ++ [entry], e.isGlobal = true ∧ e.origin = o ∧ e.cursor = c := by
        intro held
        obtain ⟨e, mem, rest⟩ := ih o c held
        exact ⟨e, List.mem_append_left _ mem, rest⟩
      rw [open_concat] at held
      dsimp only at held
      rw [absorb_versions] at held
      split at held
      · rename_i new
        have fresh : entry.cursor = c →
            ∃ e ∈ file ++ [entry], e.isGlobal = true ∧ e.origin = o ∧ e.cursor = c :=
          fun same => ⟨entry, List.mem_append_right _ List.mem_cons_self, new.1, new.2, same⟩
        split at held
        · rename_i c' before
          split at held
          · exact fresh (Option.some.inj held)
          · exact old (before.trans held)
        · exact fresh (Option.some.inj held)
      · exact old held

theorem traceable_open {origin : String} {file : List LogEntry} (linked : Linked file) :
    Traceable (open' origin file) := by
  constructor
  · rwa [open_entries]
  · rw [open_entries]
    exact stamped_open origin file

theorem Traceable.step (h : Traceable log) (a : LogAction) : Traceable (log.step a) := by
  cases a with
  | append event => exact h.append event
  | ingest entry => exact h.ingest entry
  | compact events => exact h.compact events
  | reopen => exact traceable_open h.linked
  | wire signing outbound => exact ⟨h.linked, h.stamped⟩
  | lockdown on => exact ⟨h.linked, h.stamped⟩
  | faults outcomes => exact ⟨h.linked, h.stamped⟩

theorem Reachable.traceable (h : log.Reachable) : Traceable log := by
  obtain ⟨origin, actions, rfl⟩ := h
  exact invariant (fun _ a h => h.step a) (traceable_open stepwise_nil) actions

end Step

/-! ### Taking the offer -/

section Deliver

variable {log : EventLog}

theorem deliver_concat (log : EventLog) (batch : List LogEntry) (entry : LogEntry) :
    log.deliver (batch ++ [entry]) = ((log.deliver batch).ingest entry).1 := List.foldl_append

/-- No cursor moves back. -/
theorem covers_ingest_of_covers {origin : String} {c : Cursor} (entry : LogEntry)
    (covers : Covers log.versions[origin]? c) :
    Covers (log.ingest entry).1.versions[origin]? c := by
  rw [ingest_eq]
  split
  · rename_i acceptable
    split
    · exact covers
    · obtain ⟨h, held, behind⟩ := covers
      change Covers (log.versions.insert entry.origin entry.cursor)[origin]? c
      rw [ExtTreeMap.getElem?_insert]
      split
      · rename_i same
        obtain rfl := Std.LawfulEqCmp.eq_of_compare same
        unfold EventLog.acceptable at acceptable
        simp only [Bool.and_eq_true] at acceptable
        have ahead : Earlier h entry.cursor := by
          have fits := acceptable.2
          rw [held] at fits
          exact (follows_iff.mp fits).earlier
        exact covers_some.mpr fun late => behind (ahead.trans late)
      · exact ⟨h, held, behind⟩
  · exact covers

theorem covers_deliver {origin : String} {c : Cursor} (batch : List LogEntry)
    (covers : Covers log.versions[origin]? c) :
    Covers (log.deliver batch).versions[origin]? c := by
  induction batch using List.reverseRecOn with
  | nil => exact covers
  | append_singleton batch entry ih =>
      rw [deliver_concat]
      exact covers_ingest_of_covers entry ih

/-- Taking entries changes neither the signing nor a file that refuses nothing. -/
theorem deliver_reliable (noFaults : log.faults = []) (batch : List LogEntry) :
    (log.deliver batch).faults = [] ∧ (log.deliver batch).signing = log.signing := by
  induction batch using List.reverseRecOn with
  | nil => exact ⟨noFaults, rfl⟩
  | append_singleton batch entry ih =>
      obtain ⟨faults, signing⟩ := ih
      rw [deliver_concat, ingest_eq]
      split
      · rw [faults]
        refine ⟨?_, signing⟩
        change (log.deliver batch).faults.tail = []
        rw [faults]
        rfl
      · exact ⟨faults, signing⟩

/-- An entry that starts its epoch, or whose predecessor has been passed, is
taken or has been passed itself: it never opens a gap. -/
theorem ingest_linked (noFaults : log.faults = []) {entry : LogEntry}
    (global : entry.isGlobal = true)
    (trusted : log.signing.all (·.verify entry.content entry.sig) = true)
    (linked : entry.seq = 0 ∨
      ∃ s, s + 1 = entry.seq ∧ Covers log.versions[entry.origin]? (entry.epoch, s)) :
    (∃ answer, (log.ingest entry).2 = .ok answer) ∧
      Covers (log.ingest entry).1.versions[entry.origin]? entry.cursor := by
  rw [ingest_eq, noFaults]
  cases fits : follows log.versions[entry.origin]? entry.cursor with
  | true =>
      have acceptable : log.acceptable entry = true := by
        unfold EventLog.acceptable
        rw [global, trusted, fits]
        rfl
      rw [if_pos acceptable]
      refine ⟨⟨_, rfl⟩, ?_⟩
      change Covers (log.versions.insert entry.origin entry.cursor)[entry.origin]? entry.cursor
      rw [ExtTreeMap.getElem?_insert_self]
      exact covers_some.mpr Earlier.irrefl
  | false =>
      have refused : ¬ log.acceptable entry = true := by
        unfold EventLog.acceptable
        rw [fits, Bool.and_false]
        exact Bool.false_ne_true
      rw [if_neg refused]
      refine ⟨⟨_, rfl⟩, ?_⟩
      have late := Bool.eq_false_iff.mp fits
      rw [Ne, follows_iff] at late
      cases held : log.versions[entry.origin]? with
      | none =>
          rw [held] at late linked
          rcases linked with first | ⟨s, _, covers⟩
          · exact absurd first late
          · exact absurd covers not_covers_none
      | some h =>
          rw [held] at late linked
          rw [covers_some]
          simp only [covers_some, Next, Earlier, LogEntry.cursor] at *
          rcases linked with first | ⟨s, next, covers⟩ <;> omega

end Deliver

/-- The part of some entries that a peer lacks. -/
def offer (peer : Versions) (entries : List LogEntry) : List LogEntry :=
  (entries.filter fun e => e.event.scope == .global).filter fun e =>
    match peer[e.origin]? with
    | none => true
    | some h => cursorNewer h e.cursor

/-- An entry is offered if it is Global and the peer's cursor has not passed it. -/
theorem offer_concat (peer : Versions) (entries : List LogEntry) (entry : LogEntry) :
    (offer peer (entries ++ [entry]) = offer peer entries ++ [entry] ∧ entry.isGlobal = true) ∨
      (offer peer (entries ++ [entry]) = offer peer entries ∧
        (entry.isGlobal = true → Covers peer[entry.origin]? entry.cursor)) := by
  unfold offer
  rw [List.filter_append, List.filter_append]
  cases global : entry.isGlobal with
  | false =>
      have scope : (entry.event.scope == Scope.global) = false := global
      refine .inr ⟨?_, fun absurd => by contradiction⟩
      simp [scope]
  | true =>
      have scope : (entry.event.scope == Scope.global) = true := global
      cases held : peer[entry.origin]? with
      | none => exact .inl ⟨by simp [scope, held], rfl⟩
      | some h =>
          cases newer : cursorNewer h entry.cursor with
          | true => exact .inl ⟨by simp [scope, held, newer], rfl⟩
          | false =>
              refine .inr ⟨by simp [scope, held, newer], fun _ => covers_some.mpr fun late => ?_⟩
              rw [cursorNewer_iff.mpr late] at newer
              contradiction

/-- Delivering what a peer lacks of linked entries: each is taken or has been
passed, and in the end all of them have been passed. -/
theorem deliver_offer {receiver : EventLog} (noFaults : receiver.faults = [])
    {entries : List LogEntry} (linked : Linked entries)
    (trusted : ∀ e ∈ offer receiver.versions entries,
      receiver.signing.all (·.verify e.content e.sig) = true) :
    Stepwise (fun before e =>
        (∃ answer, ((receiver.deliver before).ingest e).2 = .ok answer) ∧
          Covers (receiver.deliver (before ++ [e])).versions[e.origin]? e.cursor)
      (offer receiver.versions entries) ∧
    ∀ e ∈ entries, e.isGlobal = true →
      Covers (receiver.deliver (offer receiver.versions entries)).versions[e.origin]? e.cursor := by
  induction entries using List.reverseRecOn with
  | nil => exact ⟨stepwise_nil, by simp⟩
  | append_singleton entries entry ih =>
      obtain ⟨front, last⟩ := stepwise_concat.mp linked
      rcases offer_concat receiver.versions entries entry with ⟨grows, global⟩ | ⟨same, passed⟩
      · rw [grows] at trusted ⊢
        obtain ⟨steps, covered⟩ :=
          ih front fun e mem => trusted e (List.mem_append_left _ mem)
        obtain ⟨faults, signing⟩ :=
          deliver_reliable noFaults (offer receiver.versions entries)
        have behind : entry.seq = 0 ∨ ∃ s, s + 1 = entry.seq ∧
            Covers (receiver.deliver (offer receiver.versions entries)).versions[entry.origin]?
              (entry.epoch, s) := by
          rcases last global with first | ⟨p, mem, pGlobal, origin, epoch, seq⟩
          · exact .inl first
          · refine .inr ⟨p.seq, seq, ?_⟩
            rw [← origin, ← epoch]
            exact covered p mem pGlobal
        have taken := ingest_linked faults global
          (by rw [signing]; exact trusted entry (List.mem_append_right _ List.mem_cons_self)) behind
        rw [← deliver_concat] at taken
        refine ⟨stepwise_concat.mpr ⟨steps, taken⟩, fun e mem eGlobal => ?_⟩
        rcases List.mem_append.mp mem with mem | mem
        · rw [deliver_concat]
          exact covers_ingest_of_covers entry (covered e mem eGlobal)
        · rw [List.mem_singleton.mp mem]
          exact taken.2
      · rw [same] at trusted ⊢
        obtain ⟨steps, covered⟩ := ih front trusted
        refine ⟨steps, fun e mem eGlobal => ?_⟩
        rcases List.mem_append.mp mem with mem | mem
        · exact covered e mem eGlobal
        · obtain rfl := List.mem_singleton.mp mem
          exact covers_deliver _ (passed eGlobal)

/-- What a reachable log offers a peer can be ingested one by one: no write
fails, no entry is turned away for a gap, and afterwards the peer's cursor of
every origin has reached the sender's. -/
theorem anti_entropy_complete (sender receiver : EventLog) (reachable : sender.Reachable)
    (noFaults : receiver.faults = [])
    (trusted : ∀ e ∈ sender.missingFor receiver.versions,
      receiver.signing.all (·.verify e.content e.sig) = true) :
    (∀ before e rest, sender.missingFor receiver.versions = before ++ e :: rest →
      (∃ answer, ((receiver.deliver before).ingest e).2 = .ok answer) ∧
        Covers (receiver.deliver (before ++ [e])).versions[e.origin]? e.cursor) ∧
    ∀ (origin : String) c, sender.versions[origin]? = some c →
      Covers (receiver.deliver (sender.missingFor receiver.versions)).versions[origin]? c := by
  obtain ⟨linked, stamped⟩ := reachable.traceable
  obtain ⟨steps, covered⟩ := deliver_offer noFaults linked trusted
  refine ⟨steps, fun origin c held => ?_⟩
  obtain ⟨e, mem, global, rfl, rfl⟩ := stamped origin c held
  exact covered e mem global

/-- A log of one entry, and what a fresh peer has after taking it. -/
theorem anti_entropy_complete_one :
    Covers ((fresh "b").deliver (((fresh "a").step (.append (.accountVerified "alice"))).missingFor
      (fresh "b").versions)).versions["a"]? (0, 0) :=
  (anti_entropy_complete ((fresh "a").step (.append (.accountVerified "alice"))) (fresh "b")
    ⟨"a", [.append (.accountVerified "alice")], rfl⟩ rfl fun _ _ => rfl).2 "a" (0, 0) (by decide)

end EventLog

end Echo
