import Echo.Db.Written
import Echo.Lib.Positions
import Echo.MemoServ.Commands

/-!
What becomes of the mailboxes: in memory, and in what a restart makes of the log.

A memo is the number it has in its owner's list. The fold drops what a full mailbox is sent
and the services do not, so one memo too many and every later number means another memo
after a restart.
-/

namespace Echo

open Echo.Lib

/-- A memo that has been read. -/
def Memo.seen (m : Memo) : Memo := { m with read := true }

/-- An account's mailbox. -/
def Store.mail (s : Store) (k : String) : Option (List Memo) := (s.accounts[k]?).map (·.memos)

namespace MemoServ

/-! ### What is asked for -/

/-- What a command is to do to the mailboxes, by the positions their owners see. -/
structure Plan where
  /-- Whose mailbox it marks and removes from. -/
  box : String := ""
  marked : List Nat := []
  removed : List Nat := []
  /-- The memos it leaves, and for whom. -/
  posted : List (String × Memo) := []

/-- The memos among these that are for one account. -/
def arrived (posted : List (String × Memo)) (k : String) : List Memo :=
  (posted.filter fun p => key p.1 = k).map Prod.snd

/-- A mailbox as it is to be afterwards. -/
def Plan.mailbox (p : Plan) (k : String) (memos : List Memo) : List Memo :=
  (if k = key p.box then without p.removed (editAt p.marked Memo.seen memos) else memos) ++
    arrived p.posted k

section Plans

variable (env : Env) (u : Unicode) («from» : ChanServ.Sender) (account : String) (args : List String)
  (db : Db)

/-- The same memo for each of these. -/
def letters (targets : List String) (sender text : String) (receipt : Bool) : List (String × Memo) :=
  targets.map fun target => (target, ⟨sender, text, env.now, false, receipt⟩)

/-- The receipt that is due when a memo is read. -/
def due : Option Memo → List (String × Memo)
  | none => []
  | some m =>
      if m.receipt && !m.read then letters env [m.sender] "MemoServ" (receiptText account m.ts) false
      else []

/-- The receipts that are due when the memos at these positions are read. -/
def receipts (memos : List Memo) (targets : List Nat) : List (String × Memo) :=
  targets.flatMap fun i => due env account memos[i]?

/-- The positions that `DEL <num>|ALL` names. -/
def deleted : List Nat :=
  match args[1]?.map toAsciiUppercase with
  | some "ALL" => List.range (db.memoList account).length
  | some numstr => (position numstr).toList
  | none => []

/-- What a command is to do for someone identified. -/
def planCommand (operAccounts : List String) : Plan :=
  match args.head?.map toAsciiUppercase with
  | some "SEND" =>
      { posted := letters env (addressee account args db).toList account (joinWords (args.drop 2)) false }
  | some "RSEND" =>
      { posted := letters env (addressee account args db).toList account (joinWords (args.drop 2)) true }
  | some "READ" =>
      { box := account
        marked := readTargets account args db
        posted := receipts env account (db.memoList account) (readTargets account args db) }
  | some "DEL" | some "DELETE" => { box := account, removed := deleted account args db }
  | some "CANCEL" =>
      match args[1]?.bind db.resolveAccount with
      | none => {}
      | some dest => { box := dest, removed := (Db.lastUnread account (db.memoList dest)).toList }
  | some "SENDALL" =>
      if !«from».privs.has .admin || args.length < 2 then {}
      else { posted := letters env (everyone env u db) account (joinWords (args.drop 1)) false }
  | some "STAFF" =>
      if !«from».privs.has .admin || args.length < 2 then {}
      else { posted := letters env (operators env operAccounts db) account (joinWords (args.drop 1)) false }
  | _ => {}

end Plans

variable (u : Unicode) (db : Db)

def plan : Act → Plan
  | .command env «from» operAccounts args =>
      match «from».account with
      | none => {}
      | some account => planCommand env u «from» account args db operAccounts
  | .notify env «by» target text online =>
      if target.toList.head? = some '!' || eqIgnoreAsciiCase «by» target || online then {}
      else { posted := letters env [target] «by» text false }
  | .compact _ | .reopen | .faults _ => {}

/-- Each mailbox has room for what it is left. -/
def Room (posted : List (String × Memo)) (db : Db) : Prop :=
  ∀ (k : String) a, db.accounts[k]? = some a →
    arrived posted k = [] ∨ a.memos.length + (arrived posted k).length ≤ a.memoCap

/-- Every mailbox is left as the plan says, in memory and after a replay of the log, and none
is taken above its limit. -/
def Carries (p : Plan) (db db' : Db) : Prop :=
  (∀ k, db'.mail k = (db.mail k).map (p.mailbox k) ∧
    (replay db'.log.entries).mail k = (db.mail k).map (p.mailbox k)) ∧
  ∀ (k : String) (old new : Account), db.accounts[k]? = some old → db'.accounts[k]? = some new →
    new.memos.length ≤ old.memos.length ∨ new.memos.length ≤ new.memoCap

/-- A step does to the mailboxes what it is asked to. -/
def Kept (a : Act) : Prop := Carries (plan u db a) db (step u db a)

/-- Each mailbox has room for what a step leaves in it. -/
def Fits (a : Act) : Prop := Room (plan u db a).posted db

/-! ### Edits of accounts -/

/-- An edit of one account. -/
def onAccount (account : String) (write : Account → Account) (k : String) (a : Account) : Account :=
  if k = key account then write a else a

/-- The log takes writes still, and the accounts are edited. -/
structure Edits (f : String → Account → Account) (db db' : Db) : Prop where
  reliable : db'.Reliable
  accounts : ∀ k : String, db'.accounts[k]? = (db.accounts[k]?).map (f k)

variable {u} {db} {db' db'' : Db} {f g : String → Account → Account}

theorem Edits.trans (first : Edits f db db') (second : Edits g db' db'') :
    Edits (fun k a => g k (f k a)) db db'' where
  reliable := second.reliable
  accounts k := by
    rw [second.accounts, first.accounts, Option.map_map]
    rfl

theorem Edits.congr (edits : Edits f db db')
    (same : ∀ (k : String) a, db.accounts[k]? = some a → f k a = g k a) : Edits g db db' where
  reliable := edits.reliable
  accounts k := by
    rw [edits.accounts]
    exact Option.map_congr fun a held => same k a held

theorem edits_refl (reliable : db.Reliable) : Edits (fun _ a => a) db db where
  reliable := reliable
  accounts k := by
    rw [Option.map_id']

theorem getElem?_adjustAccount {s : Store} {account : String} {write : Account → Account} (k : String) :
    (s.adjustAccount account write).accounts[k]? = (s.accounts[k]?).map (onAccount account write k) := by
  unfold Store.adjustAccount onAccount
  dsimp only
  rw [Std.ExtTreeMap.getElem?_modify]
  by_cases same : k = key account
  · subst same
    simp
  · have other : compare (key account) k ≠ .eq := fun eq => same (Std.LawfulEqOrd.eq_of_compare eq).symm
    simp [same, other]

theorem edits_adjust (reliable : db.Reliable) (account : String) (event : Event)
    (write : Account → Account) :
    Edits (onAccount account write) db
      { db with toStore := db.toStore.adjustAccount account write, log := db.log.committed event } where
  reliable := by
    constructor
    · exact reliable.1
    · change db.log.faults.tail = []
      rw [reliable.2, List.tail_nil]
  accounts := getElem?_adjustAccount

theorem edits_writeAccount (reliable : db.Reliable) (account : String) (event : Event)
    (write : Account → Account) :
    Edits (onAccount account write) db ((Db.writeAccount account event write).run.run db).2 := by
  change Edits _ db ((ExceptT.run (if db.accounts.contains (key account) then _ else _ :
    DbM RegError Unit)).run db).2
  cases known : db.accounts.contains (key account) with
  | true =>
      rw [if_pos rfl, Db.run_logged, EventLog.append_of_writable reliable.writable]
      exact edits_adjust reliable account event write
  | false =>
      refine (edits_refl reliable).congr fun k a held => (if_neg ?_).symm
      rintro rfl
      rw [Std.ExtTreeMap.contains_eq_isSome_getElem?, held] at known
      cases known

theorem edits_quietAccount (reliable : db.Reliable) {account : String} {pending : Account → Bool}
    {event : Account → Event} {write : Account → Account} :
    Edits (onAccount account fun a => if pending a then write a else a) db
      ((Db.quietAccount account pending event write).run db).2 := by
  unfold Db.quietAccount
  rw [run_get_bind]
  cases held : db.accounts[key account]? with
  | none =>
      refine (edits_refl reliable).congr fun k a there => (if_neg ?_).symm
      rintro rfl
      rw [held] at there
      cases there
  | some a =>
      have alone : ∀ (k : String) b, db.accounts[k]? = some b → k = key account → b = a := by
        rintro k b there rfl
        exact Option.some.inj (there.symm.trans held)
      dsimp only
      by_cases waits : pending a = true
      · rw [if_pos waits]
        change Edits _ db ((Db.quietly (event a) (·.adjustAccount account write)).run db).2
        rw [Db.run_quietly, EventLog.append_of_writable reliable.writable]
        refine (edits_adjust reliable account (event a) write).congr fun k b there => ?_
        refine ite_congr rfl (fun same => ?_) fun _ => rfl
        rw [alone k b there same]
        exact (if_pos waits).symm
      · rw [if_neg waits]
        refine (edits_refl reliable).congr fun k b there => ?_
        unfold onAccount
        by_cases same : k = key account
        · rw [if_pos same, alone k b there same]
          exact (if_neg waits).symm
        · rw [if_neg same]

/-! ### What each store call does -/

/-- The events about mailboxes change accounts by what the accounts are alone. -/
def Mails (_ : Store) : Event → Prop
  | .memoSent .. | .memoRead .. | .memoDeleted .. | .memoIgnoreAdd .. | .memoIgnoreDel ..
  | .memoPrefsSet .. => True
  | _ => False

/-- An account with memos left in its mailbox. -/
def delivered (posted : List (String × Memo)) (k : String) (a : Account) : Account :=
  { a with memos := a.memos ++ arrived posted k }

/-- An account with its memos changed. -/
def remailed (account : String) (edit : List Memo → List Memo) : String → Account → Account :=
  onAccount account fun a => { a with memos := edit a.memos }

theorem arrived_append {first rest : List (String × Memo)} {k : String} :
    arrived (first ++ rest) k = arrived first k ++ arrived rest k := by
  unfold arrived
  rw [List.filter_append, List.map_append]

theorem Room.front {first rest : List (String × Memo)} (room : Room (first ++ rest) db) :
    Room first db := by
  intro k a held
  have whole := room k a held
  rw [arrived_append, List.append_eq_nil_iff, List.length_append] at whole
  rcases whole with ⟨none, -⟩ | fits
  · exact .inl none
  · exact .inr (by omega)

theorem Room.back {first rest : List (String × Memo)} (room : Room (first ++ rest) db)
    (edits : Edits f db db') (grows : ∀ (k : String) a, db.accounts[k]? = some a →
      (f k a).memos.length = a.memos.length + (arrived first k).length ∧ (f k a).memoCap = a.memoCap) :
    Room rest db' := by
  intro k b held
  rw [edits.accounts] at held
  obtain ⟨a, was, rfl⟩ := Option.map_eq_some_iff.mp held
  obtain ⟨longer, same⟩ := grows k a was
  have whole := room k a was
  rw [arrived_append, List.append_eq_nil_iff, List.length_append] at whole
  rcases whole with ⟨-, none⟩ | fits
  · exact .inl none
  · exact .inr (by omega)

/-- A program on a log that takes writes: it edits the accounts, and where there is room for
what it posts it does so as the fold of what it logs. -/
structure Brings {α : Type} (f : String → Account → Account) (posted : List (String × Memo))
    (m : StateM Db α) (db : Db) : Prop where
  edits : Edits f db (m.run db).2
  lockstep : Room posted db → Keeps (LockstepIn Mails) m db

theorem Brings.congr {α : Type} {posted : List (String × Memo)} {m : StateM Db α}
    (brings : Brings f posted m db)
    (same : ∀ (k : String) a, db.accounts[k]? = some a → f k a = g k a) : Brings g posted m db :=
  ⟨brings.edits.congr same, brings.lockstep⟩

theorem Brings.bind {α β : Type} {first rest : List (String × Memo)} {m : StateM Db α}
    {n : α → StateM Db β} (now : Brings f first m db)
    (grows : ∀ (k : String) a, db.accounts[k]? = some a →
      (f k a).memos.length = a.memos.length + (arrived first k).length ∧ (f k a).memoCap = a.memoCap)
    (later : Brings g rest (n (m.run db).1) (m.run db).2) :
    Brings (fun k a => g k (f k a)) (first ++ rest) (m >>= n) db where
  edits := now.edits.trans later.edits
  lockstep room := keeps_bind (now.lockstep room.front) (later.lockstep (room.back now.edits grows))

/-- Nothing is posted. -/
theorem Brings.seq {α β : Type} {m : StateM Db α} {n : α → StateM Db β} (now : Brings f [] m db)
    (later : Brings g [] (n (m.run db).1) (m.run db).2) :
    Brings (fun k a => g k (f k a)) [] (m >>= n) db where
  edits := now.edits.trans later.edits
  lockstep room := keeps_bind (now.lockstep room) (later.lockstep fun _ _ _ => .inl rfl)

theorem brings_get {α : Type} {posted : List (String × Memo)} {next : Db → StateM Db α}
    (brings : Brings f posted (next db) db) : Brings f posted (get >>= next) db :=
  ⟨brings.edits, fun room => keeps_get_bind (brings.lockstep room)⟩

/-- What the answer is does not matter. -/
theorem Brings.ignore {α : Type} {posted : List (String × Memo)} {m : StateM Db α}
    (brings : Brings f posted m db) :
    Brings f posted (m >>= fun _ => (pure () : StateM Db Unit)) db :=
  ⟨brings.edits, fun room => keeps_bind (brings.lockstep room) keeps_pure⟩

theorem brings_pure {α : Type} {x : α} (reliable : db.Reliable) :
    Brings (fun _ a => a) [] (pure x : StateM Db α) db :=
  ⟨edits_refl reliable, fun _ => keeps_pure⟩

theorem delivered_nil : delivered [] = fun _ a => a := by
  funext k a
  unfold delivered arrived
  rw [List.filter_nil, List.map_nil, List.append_nil]

theorem brings_nothing (reliable : db.Reliable) : Brings (delivered []) [] (pure () : StateM Db Unit) db :=
  (brings_pure reliable).congr fun k a _ => (congrFun₂ delivered_nil k a).symm

theorem grows_delivered {posted : List (String × Memo)} (k : String) (a : Account) :
    (delivered posted k a).memos.length = a.memos.length + (arrived posted k).length ∧
      (delivered posted k a).memoCap = a.memoCap :=
  ⟨List.length_append, rfl⟩

theorem memoCap_remailed {account : String} {edit : List Memo → List Memo} (k : String) (a : Account) :
    (remailed account edit k a).memoCap = a.memoCap := by
  unfold remailed onAccount
  split <;> rfl

theorem memos_remailed {account : String} {edit : List Memo → List Memo} (k : String) (a : Account) :
    (remailed account edit k a).memos = if k = key account then edit a.memos else a.memos := by
  unfold remailed onAccount
  split <;> rfl

theorem remailed_editAt_nil {account : String} {g : Memo → Memo} (k : String) (a : Account) :
    remailed account (editAt [] g) k a = a := by
  unfold remailed onAccount
  dsimp only
  rw [editAt_nil]
  exact ite_self a

section Calls

variable {env : Env} {account target sender text : String} {receipt : Bool} {i : Nat}

theorem brings_post (reliable : db.Reliable) :
    Brings (delivered (letters env [target] sender text receipt))
      (letters env [target] sender text receipt) (post env target sender text receipt) db where
  edits := by
    have written := edits_writeAccount reliable target (.memoSent target sender text env.now receipt)
      fun a => { a with memos := a.memos ++ [⟨sender, text, env.now, false, receipt⟩] }
    refine written.congr fun k a _ => ?_
    unfold onAccount delivered letters arrived
    by_cases same : k = key target
    · simp [same]
    · simp [same, Ne.symm same]
  lockstep room := by
    refine Db.lockstep_memoSend (fun _ a held => ?_) trivial
    have fits := room (key target) a held
    have one : arrived (letters env [target] sender text receipt) (key target) =
        [⟨sender, text, env.now, false, receipt⟩] := by simp [arrived, letters]
    rw [one] at fits
    rcases fits with none | fits
    · cases none
    · exact fits

theorem modify_seen {memos : List Memo} (read : (memos[i]?).any (!·.read) = false) :
    memos.modify i Memo.seen = memos := by
  refine List.ext_getElem? fun j => ?_
  rw [List.getElem?_modify]
  by_cases same : i = j
  · subst same
    cases held : memos[i]? with
    | none => rfl
    | some m =>
        rw [held] at read
        have was : m.read = true := by simpa using read
        simp [Memo.seen, ← was]
  · simp [same]

theorem brings_memoRead (reliable : db.Reliable) :
    Brings (remailed account (·.modify i Memo.seen)) [] (Db.memoRead account i) db where
  edits := by
    refine (edits_quietAccount reliable).congr fun k a _ => ?_
    refine ite_congr rfl (fun _ => ?_) fun _ => rfl
    dsimp only
    by_cases unread : (a.memos[i]?).any (!·.read) = true
    · rw [if_pos unread]
      rfl
    · rw [if_neg unread, modify_seen (by simpa using unread)]
  lockstep _ := Db.keeps_memoRead fun _ _ _ => Db.lockstep_quietly rfl trivial reliable.writable

theorem brings_memoDel (reliable : db.Reliable) :
    Brings (remailed account (·.eraseIdx i)) [] (Db.memoDel account i) db where
  edits := by
    refine (edits_quietAccount reliable).congr fun k a _ => ?_
    refine ite_congr rfl (fun _ => ?_) fun _ => rfl
    dsimp only
    by_cases within : i < a.memos.length
    · rw [if_pos (by simpa using within)]
    · rw [if_neg (by simpa using within), List.eraseIdx_of_length_le (by omega)]
  lockstep _ := Db.keeps_memoDel fun _ _ _ => Db.lockstep_quietly rfl trivial reliable.writable

/-! ### Loops -/

theorem brings_letters (reliable : db.Reliable) (targets : List String) :
    Brings (delivered (letters env targets sender text receipt)) (letters env targets sender text receipt)
      (targets.forM fun target => post env target sender text receipt) db := by
  induction targets generalizing db with
  | nil => exact brings_nothing reliable
  | cons target targets ih =>
      rw [List.forM_eq_forM, List.forM_cons]
      have first : Brings _ _ (post env target sender text receipt) db := brings_post reliable
      have whole := first.bind (n := fun _ => targets.forM fun target => post env target sender text receipt)
        (fun k a _ => grows_delivered k a) (ih first.edits.reliable)
      refine whole.congr fun k a _ => ?_
      unfold delivered
      rw [List.append_assoc, ← arrived_append]
      rfl

theorem getElem?_memoList :
    (db.accounts[key account]?).bind (·.memos[i]?) = (db.memoList account)[i]? := by
  unfold Db.memoList
  cases db.accounts[key account]? <;> rfl

theorem brings_readOne (reliable : db.Reliable) :
    Brings (fun k a => delivered (due env account (db.memoList account)[i]?) k
        (remailed account (·.modify i Memo.seen) k a))
      (due env account (db.memoList account)[i]?) (readOne env account i) db := by
  change Brings _ ([] ++ due env account (db.memoList account)[i]?) _ _
  have reads : Brings _ _ (Db.memoRead account i) db := brings_memoRead reliable
  refine reads.bind (fun k a _ => ⟨?_, memoCap_remailed k a⟩) ?_
  · rw [memos_remailed]
    split
    · exact List.length_modify ..
    · rfl
  · have answer : ((Db.memoRead account i).run db).1 = (db.memoList account)[i]? := getElem?_memoList
    rw [answer]
    cases (db.memoList account)[i]? with
    | none => exact brings_nothing reads.edits.reliable
    | some m =>
        unfold sendReceipt due
        dsimp only
        cases m.receipt && !m.read with
        | true => exact brings_post reads.edits.reliable
        | false => exact brings_nothing reads.edits.reliable

theorem receipts_congr {memos memos' : List Memo} {targets : List Nat}
    (same : ∀ i ∈ targets, memos[i]? = memos'[i]?) :
    receipts env account memos targets = receipts env account memos' targets := by
  unfold receipts
  rw [List.flatMap_def, List.flatMap_def, List.map_congr_left fun i mem => by rw [same i mem]]

theorem memoList_of_edits (edits : Edits f db db') :
    db'.memoList account = (db.accounts[key account]?).elim [] fun a => (f (key account) a).memos := by
  unfold Db.memoList
  rw [edits.accounts]
  cases db.accounts[key account]? <;> rfl

/-- Reading one memo changes no other's position, and what it posts comes behind. -/
theorem getElem?_memoList_read {posted : List (String × Memo)} {j : Nat} (other : i ≠ j)
    (edits : Edits (fun k a => delivered posted k (remailed account (·.modify i Memo.seen) k a)) db db')
    (within : j < (db.memoList account).length) :
    j < (db'.memoList account).length ∧ (db'.memoList account)[j]? = (db.memoList account)[j]? := by
  rw [memoList_of_edits edits]
  unfold Db.memoList at within ⊢
  cases held : db.accounts[key account]? with
  | none =>
      rw [held] at within
      exact absurd within (Nat.not_lt_zero j)
  | some a =>
      rw [held] at within
      dsimp only [Option.elim_some, delivered]
      rw [memos_remailed, if_pos rfl]
      have front : j < (a.memos.modify i Memo.seen).length := by rwa [List.length_modify]
      constructor
      · rw [List.length_append]
        omega
      · rw [List.getElem?_append_left front, List.getElem?_modify]
        simp [other]

/-- Memos are read one after the other; those still to be read stay where they are. -/
theorem brings_reading (reliable : db.Reliable) {targets : List Nat} (distinct : targets.Nodup)
    (within : ∀ i ∈ targets, i < (db.memoList account).length) :
    Brings (fun k a => delivered (receipts env account (db.memoList account) targets) k
        (remailed account (editAt targets Memo.seen) k a))
      (receipts env account (db.memoList account) targets) (targets.forM (readOne env account)) db := by
  induction targets generalizing db with
  | nil =>
      refine (brings_nothing reliable).congr fun k a _ => ?_
      rw [remailed_editAt_nil]
      rfl
  | cons i targets ih =>
      obtain ⟨fresh, distinct⟩ := List.nodup_cons.mp distinct
      rw [List.forM_eq_forM, List.forM_cons]
      have first : Brings _ _ (readOne env account i) db := brings_readOne reliable
      have stay : ∀ j ∈ targets, j < (((readOne env account i).run db).2.memoList account).length ∧
          (((readOne env account i).run db).2.memoList account)[j]? = (db.memoList account)[j]? := by
        intro j mem
        refine getElem?_memoList_read ?_ first.edits (within j (List.mem_cons_of_mem i mem))
        rintro rfl
        exact fresh mem
      have rest := ih first.edits.reliable distinct fun j mem => (stay j mem).1
      rw [receipts_congr fun j mem => (stay j mem).2] at rest
      have whole := first.bind (n := fun _ => targets.forM (readOne env account)) (fun k a _ => ?_) rest
      · refine whole.congr fun k a held => ?_
        have split : receipts env account (db.memoList account) (i :: targets) =
            due env account (db.memoList account)[i]? ++ receipts env account (db.memoList account) targets := rfl
        rw [split]
        unfold delivered remailed onAccount
        by_cases same : k = key account
        · subst same
          have shorter : ∀ j ∈ targets, j < (a.memos.modify i Memo.seen).length := by
            intro j mem
            have front := within j (List.mem_cons_of_mem i mem)
            unfold Db.memoList at front
            rw [held] at front
            rwa [List.length_modify]
          simp only [if_true]
          rw [editAt_append shorter, List.append_assoc, ← arrived_append, editAt_cons fresh]
        · simp only [if_neg same]
          rw [List.append_assoc, ← arrived_append]
      · refine ⟨?_, memoCap_remailed k a⟩
        rw [(grows_delivered k _).1, memos_remailed]
        split
        · rw [List.length_modify]
        · rfl

end Calls

/-! ### Commands -/

/-- A program does what a plan says. -/
structure Does (p : Plan) (m : StateM Db Unit) (db : Db) : Prop where
  brings : ∃ f, Brings f p.posted m db ∧ ∀ (k : String) a, db.accounts[k]? = some a →
    (f k a).memos = p.mailbox k a.memos ∧ (arrived p.posted k ≠ [] → (f k a).memoCap = a.memoCap)
  one_way : p.removed = [] ∨ p.posted = []

section Commands

variable {env : Env} {account : String} {args : List String} {m : StateM Db Unit}

@[simp]
theorem mailbox_posted {posted : List (String × Memo)} {k : String} {memos : List Memo} :
    ({ posted } : Plan).mailbox k memos = memos ++ arrived posted k := by
  unfold Plan.mailbox
  rw [editAt_nil, without_nil, ite_self]

/-- A program that leaves memos and does nothing else. -/
theorem does_posted {posted : List (String × Memo)} (brings : Brings (delivered posted) posted m db) :
    Does { posted } m db where
  brings := ⟨_, brings, fun k _ _ => ⟨mailbox_posted.symm, fun _ => (grows_delivered k _).2⟩⟩
  one_way := .inl rfl

/-- A program that leaves the mailboxes alone. -/
theorem does_nothing {f : String → Account → Account} (brings : Brings f [] m db)
    (same : ∀ k a, (f k a).memos = a.memos) : Does {} m db where
  brings := by
    refine ⟨f, brings, fun k a _ => ⟨?_, fun some => absurd rfl some⟩⟩
    rw [same, mailbox_posted]
    exact (List.append_nil _).symm
  one_way := .inl rfl

theorem does_pure (reliable : db.Reliable) : Does {} (pure ()) db :=
  does_nothing (brings_pure reliable) fun _ _ => rfl

theorem Does.get {p : Plan} {next : Db → StateM Db Unit} (does : Does p (next db) db) :
    Does p (get >>= next) db := by
  obtain ⟨f, brings, same⟩ := does.brings
  exact ⟨⟨f, brings_get brings, same⟩, does.one_way⟩

theorem does_send (reliable : db.Reliable) {receipt : Bool} :
    Does { posted := letters env (addressee account args db).toList account (joinWords (args.drop 2)) receipt }
      (send env account args receipt) db := by
  refine does_posted ?_
  unfold send
  refine brings_get ?_
  cases addressee account args db with
  | none => exact brings_nothing reliable
  | some dest => exact brings_post reliable

/-- SEND and RSEND leave nothing in a full mailbox. -/
theorem room_addressee {receipt : Bool} :
    Room (letters env (addressee account args db).toList account (joinWords (args.drop 2)) receipt) db := by
  intro k a held
  cases reaches : addressee account args db with
  | none => exact .inl rfl
  | some dest =>
      by_cases mine : k = key dest
      · subst mine
        refine .inr ?_
        have below : a.memos.length < a.memoCap := by
          unfold addressee Db.memoLimitOf Db.memoList at reaches
          split at reaches
          · cases reaches
          · split at reaches
            · cases reaches
            · rename_i resolved _
              split at reaches
              · cases reaches
              · rename_i full
                split at reaches
                · cases reaches
                · obtain rfl := Option.some.inj reaches
                  rw [held] at full
                  exact Nat.lt_of_not_le full
        simpa [arrived, letters] using Nat.succ_le_of_lt below
      · exact .inl (by simp [arrived, letters, Ne.symm mine])

theorem nodup_readTargets : (readTargets account args db).Nodup ∧
    ((∃ i, readTargets account args db = [i]) ∨
      ∀ i ∈ readTargets account args db, i < (db.memoList account).length) := by
  unfold readTargets
  split
  · exact ⟨(positions_of_sublist List.filter_sublist).1, .inr (positions_of_sublist List.filter_sublist).2⟩
  · exact ⟨(positions_of_sublist (List.Sublist.refl _)).1, .inr (positions_of_sublist (List.Sublist.refl _)).2⟩
  · rename_i numstr _ _ _
    cases position numstr with
    | none => exact ⟨List.nodup_nil, .inr fun i mem => absurd mem List.not_mem_nil⟩
    | some i => exact ⟨List.nodup_singleton i, .inl ⟨i, rfl⟩⟩
  · exact ⟨List.nodup_nil, .inr fun i mem => absurd mem List.not_mem_nil⟩

theorem brings_read (reliable : db.Reliable) :
    Brings (fun k a => delivered (receipts env account (db.memoList account) (readTargets account args db)) k
        (remailed account (editAt (readTargets account args db) Memo.seen) k a))
      (receipts env account (db.memoList account) (readTargets account args db)) (read env account args) db := by
  have targets : (readTargets account args db).Nodup ∧ _ := nodup_readTargets
  obtain ⟨distinct, ⟨i, one⟩ | within⟩ := targets
  · refine brings_get ?_
    rw [one, List.forM_eq_forM, List.forM_cons]
    have reads : Brings _ _ (readOne env account i) db := brings_readOne reliable
    have due_one : receipts env account (db.memoList account) [i] = due env account (db.memoList account)[i]? :=
      List.append_nil _
    rw [due_one]
    refine (Brings.congr reads.ignore fun k a _ => ?_)
    refine congrArg (delivered _ k) ?_
    unfold remailed
    simp only [editAt_singleton]
  · exact brings_get (brings_reading reliable distinct within)

theorem does_read (reliable : db.Reliable) :
    Does { box := account, marked := readTargets account args db,
           posted := receipts env account (db.memoList account) (readTargets account args db) }
      (read env account args) db where
  brings := by
    refine ⟨_, brings_read reliable, fun k a _ => ⟨?_, fun _ => memoCap_remailed k a⟩⟩
    unfold Plan.mailbox
    rw [without_nil, ← memos_remailed]
    rfl
  one_way := .inl rfl

theorem does_removed {box : String} {removed : List Nat} {edit : List Memo → List Memo}
    (brings : Brings (remailed box edit) [] m db)
    (same : ∀ a, db.accounts[key box]? = some a → edit a.memos = without removed a.memos) :
    Does { box, removed } m db where
  brings := by
    refine ⟨_, brings, fun k a held => ⟨?_, fun some => absurd rfl some⟩⟩
    unfold Plan.mailbox
    rw [editAt_nil, memos_remailed]
    refine Eq.trans ?_ (List.append_nil _).symm
    split
    · rename_i mine
      subst mine
      exact same a held
    · rfl
  one_way := .inr rfl

theorem brings_idle (reliable : db.Reliable) : Brings (remailed account id) [] (pure () : StateM Db Unit) db := by
  refine (brings_pure reliable).congr fun k a _ => ?_
  unfold remailed onAccount
  exact (ite_self a).symm

theorem brings_emptying (reliable : db.Reliable) (positions : List Nat) :
    Brings (remailed account fun memos => positions.foldl List.eraseIdx memos) []
      (positions.forM fun i => do let _ ← Db.memoDel account i) db := by
  induction positions generalizing db with
  | nil => exact brings_idle reliable
  | cons i positions ih =>
      rw [List.forM_eq_forM, List.forM_cons]
      have first : Brings _ [] (do let _ ← Db.memoDel account i) db := (brings_memoDel reliable).ignore
      have whole := first.seq (n := fun _ => positions.forM fun i => do let _ ← Db.memoDel account i)
        (ih first.edits.reliable)
      refine whole.congr fun k a _ => ?_
      unfold remailed onAccount
      split <;> rfl

theorem deleted_all {args : List String} (all : args[1]?.map toAsciiUppercase = some "ALL") :
    deleted account args db = List.range (db.memoList account).length := by
  unfold deleted
  simp only [all]

theorem deleted_numbered {args : List String} {numstr : String} (sub : args[1]?.map toAsciiUppercase = some numstr)
    (notAll : numstr ≠ "ALL") : deleted account args db = (position numstr).toList := by
  unfold deleted
  simp only [sub]

theorem does_del (reliable : db.Reliable) :
    Does { box := account, removed := deleted account args db } (del account args) db := by
  rcases sub : args[1]?.map toAsciiUppercase with _ | numstr
  · have none : deleted account args db = [] := by
      unfold deleted
      simp only [sub]
    unfold del
    simp only [none, sub]
    exact does_removed (brings_idle reliable) fun a _ => without_nil.symm
  · by_cases all : numstr = "ALL"
    · subst all
      rw [deleted_all sub]
      unfold del
      simp only [sub]
      refine does_removed (brings_get (brings_emptying reliable _)) fun a held => ?_
      have whole : db.memoList account = a.memos := by
        unfold Db.memoList
        rw [held]
        rfl
      rw [whole, foldl_eraseIdx, List.drop_length, without_range]
    · rw [deleted_numbered sub all]
      unfold del
      simp only [sub]
      cases position numstr with
      | none => exact does_removed (brings_idle reliable) fun a _ => without_nil.symm
      | some i => exact does_removed (brings_memoDel reliable).ignore fun a _ => without_singleton.symm

theorem lastUnread_memoList {sender : String} :
    ((db.accounts[key account]?).bind fun a => Db.lastUnread sender a.memos) =
      Db.lastUnread sender (db.memoList account) := by
  unfold Db.memoList
  cases db.accounts[key account]? <;> rfl

theorem brings_memoCancel (reliable : db.Reliable) {sender : String} :
    Brings (remailed account (without (Db.lastUnread sender (db.memoList account)).toList)) []
      (Db.memoCancel account sender) db := by
  unfold Db.memoCancel
  refine brings_get ?_
  rw [lastUnread_memoList]
  cases Db.lastUnread sender (db.memoList account) with
  | none =>
      refine (brings_pure reliable).congr fun k a _ => ?_
      unfold remailed onAccount
      simp
  | some i =>
      refine (brings_memoDel reliable).congr fun k a _ => ?_
      unfold remailed
      simp only [Option.toList_some, without_singleton]

theorem does_cancel (reliable : db.Reliable) :
    Does (match args[1]?.bind db.resolveAccount with
      | none => {}
      | some dest => { box := dest, removed := (Db.lastUnread account (db.memoList dest)).toList })
      (cancel account args) db := by
  refine Does.get ?_
  cases args[1]?.bind db.resolveAccount with
  | none => exact does_pure reliable
  | some dest => exact does_removed (brings_memoCancel reliable).ignore fun a _ => rfl

/-- What is said of an account and not of its memos leaves the mailboxes alone. -/
theorem does_aside (reliable : db.Reliable) {pending : Account → Bool} {event : Account → Event}
    {write : Account → Account} (same : ∀ a, (write a).memos = a.memos)
    (lockstep : Keeps (LockstepIn Mails) (Db.quietAccount account pending event write) db) :
    Does {} (do let _ ← Db.quietAccount account pending event write) db := by
  have edits : Brings _ [] (Db.quietAccount account pending event write) db :=
    ⟨edits_quietAccount reliable, fun _ => lockstep⟩
  refine does_nothing edits.ignore fun k a => ?_
  unfold onAccount
  split
  · dsimp only
    split
    · exact same a
    · rfl
  · rfl

theorem does_ignore (reliable : db.Reliable) : Does {} (ignore account args) db := by
  have strikes : ∀ target, Does {} (do let _ ← Db.memoIgnoreDel account target) db := fun target =>
    does_aside reliable (fun _ => rfl) (Db.keeps_quietAccount (fun _ _ => rfl) fun _ _ _ =>
      Db.lockstep_quietly rfl trivial reliable.writable)
  refine Does.get ?_
  dsimp only
  split
  · split
    · exact does_pure reliable
    · exact does_aside reliable (fun _ => rfl) (Db.keeps_memoIgnoreAdd fun _ _ _ =>
        Db.lockstep_quietly rfl trivial reliable.writable)
  · exact strikes _
  · exact strikes _
  · exact does_pure reliable

/-- The fold sets both preferences, of which one is as it was. -/
theorem lockstep_prefs (reliable : db.Reliable) {event : Account → Event} {write : Account → Account}
    (mails : ∀ a s, Mails s (event a))
    (same : ∀ a, db.accounts[key account]? = some a →
      db.toStore.adjustAccount account write = apply db.toStore (event a)) :
    Keeps (LockstepIn Mails) (Db.quietAccount account (fun _ => true) event write) db :=
  Db.keeps_quietAccount same fun a _ _ => Db.lockstep_quietly rfl (mails a _) reliable.writable

theorem does_set (reliable : db.Reliable) : Does {} (set account args) db := by
  have notifies : ∀ on, Does {} (do let _ ← Db.setMemoNotify account on) db := fun on =>
    does_aside reliable (fun _ => rfl) (lockstep_prefs reliable (fun _ _ => trivial) fun a held =>
      Store.adjustAccount_congr fun b there => by rw [Option.some.inj (held.symm.trans there)])
  have limits : ∀ limit, Does {} (do let _ ← Db.setMemoLimit account limit) db := fun limit =>
    does_aside reliable (fun _ => rfl) (lockstep_prefs reliable (fun _ _ => trivial) fun a held =>
      Store.adjustAccount_congr fun b there => by rw [Option.some.inj (held.symm.trans there)])
  unfold set
  split
  · split
    · exact notifies true
    · exact notifies false
    · exact does_pure reliable
  · split
    · exact does_pure reliable
    · exact limits _
  · exact does_pure reliable

/-- What SENDALL and STAFF do, for their own recipients. -/
theorem does_announce (reliable : db.Reliable) {privileged : Bool} {short : Prop} [Decidable short]
    {recipients : Db → List String} {text : String} :
    Does (if !privileged || short then {} else { posted := letters env (recipients db) account text false })
      (if !privileged then pure ()
      else if short then pure ()
      else get >>= fun db => (recipients db).forM fun name => post env name account text false) db := by
  cases privileged with
  | false => exact does_pure reliable
  | true =>
      rw [Bool.not_true, if_neg Bool.false_ne_true, Bool.false_or]
      by_cases brief : short
      · rw [if_pos brief, if_pos (decide_eq_true brief)]
        exact does_pure reliable
      · rw [if_neg brief, if_neg (by simpa using brief)]
        exact Does.get (does_posted (brings_letters reliable _))

variable {u : Unicode} {«from» : ChanServ.Sender} {operAccounts : List String}

theorem does_command (reliable : db.Reliable) (held : «from».account = some account) :
    Does (planCommand env u «from» account args db operAccounts)
      (onCommand env u «from» args operAccounts) db := by
  unfold onCommand planCommand
  rw [held]
  dsimp only
  generalize args.head?.map toAsciiUppercase = verb
  split
  · exact does_send reliable
  · exact does_send reliable
  · exact does_read reliable
  · exact does_del reliable
  · exact does_del reliable
  · exact does_cancel reliable
  · exact does_announce reliable
  · exact does_announce reliable
  · split
    all_goals first
      | contradiction
      | exact does_ignore reliable
      | exact does_set reliable
      | exact does_pure reliable

theorem does_notify (reliable : db.Reliable) {«by» target text : String} {online : Bool} :
    Does (if target.toList.head? = some '!' || eqIgnoreAsciiCase «by» target || online then {}
      else { posted := letters env [target] «by» text false })
      (notifyOrMemo env «by» target text online) db := by
  unfold notifyOrMemo
  cases target.toList.head? = some '!' || eqIgnoreAsciiCase «by» target with
  | true => exact does_pure reliable
  | false =>
      cases online with
      | true => exact does_pure reliable
      | false => exact does_posted (brings_post reliable)

end Commands

/-! ### Runs -/

/-- The mailboxes are those that the log tells of. -/
structure Agrees (db : Db) : Prop where
  wf : db.Wf
  accounts : db.accounts = (replay db.log.entries).accounts

theorem accounts_apply {s t : Store} {event : Event} (mails : Mails s event)
    (same : s.accounts = t.accounts) : (apply s event).accounts = (apply t event).accounts := by
  have adjusted : ∀ account f, (s.adjustAccount account f).accounts = (t.adjustAccount account f).accounts :=
    fun account f => congrArg (·.modify (key account) f) same
  cases event
  all_goals first
    | exact mails.elim
    | exact adjusted _ _

theorem accounts_fold {events : List Event} {s t : Store} (mails : Along apply Mails s events)
    (same : s.accounts = t.accounts) : (fold s events).accounts = (fold t events).accounts := by
  induction events generalizing s t with
  | nil => exact same
  | cons event events ih => exact ih mails.2 (accounts_apply mails.1 same)

theorem Agrees.follows (agrees : Agrees db) (lockstep : LockstepIn Mails db db') : Agrees db' where
  wf := lockstep.lockstep.wf agrees.wf
  accounts := by
    obtain ⟨events, logs, mails, stores⟩ := lockstep
    unfold replay
    rw [logs.events, fold_append, stores]
    exact accounts_fold mails agrees.accounts

theorem length_mailbox {p : Plan} {k : String} {memos : List Memo} (stay : p.removed = []) :
    (p.mailbox k memos).length = memos.length + (arrived p.posted k).length := by
  unfold Plan.mailbox
  rw [stay, without_nil, List.length_append]
  split
  · rw [length_editAt]
  · rfl

theorem length_mailbox_le {p : Plan} {k : String} {memos : List Memo} (quiet : arrived p.posted k = []) :
    (p.mailbox k memos).length ≤ memos.length := by
  unfold Plan.mailbox
  rw [quiet, List.append_nil]
  split
  · exact length_editAt (l := memos) ▸ length_without_le
  · exact Nat.le_refl _

/-- A program that does what a plan says carries it out exactly where there is room. -/
theorem Does.carries_iff {p : Plan} {m : StateM Db Unit} (does : Does p m db) (agrees : Agrees db) :
    Carries p db (m.run db).2 ↔ Room p.posted db := by
  obtain ⟨f, brings, mails⟩ := does.brings
  have becomes : ∀ (k : String) a, db.accounts[k]? = some a → (m.run db).2.accounts[k]? = some (f k a) := by
    intro k a held
    rw [brings.edits.accounts, held]
    rfl
  constructor
  · rintro ⟨-, bounded⟩ k a held
    by_cases quiet : arrived p.posted k = []
    · exact .inl quiet
    obtain ⟨same, cap⟩ := mails k a held
    have stay : p.removed = [] := does.one_way.resolve_right fun none => quiet (by rw [none]; rfl)
    have longer : (f k a).memos.length = a.memos.length + (arrived p.posted k).length := by
      rw [same, length_mailbox stay]
    have some : 0 < (arrived p.posted k).length := List.length_pos_iff.mpr quiet
    rcases bounded k a (f k a) held (becomes k a held) with shorter | within
    · omega
    · rw [cap quiet] at within
      exact .inr (by omega)
  · intro room
    have memory : ∀ k, (m.run db).2.mail k = (db.mail k).map (p.mailbox k) := by
      intro k
      unfold Store.mail
      cases held : db.accounts[k]? with
      | none => rw [brings.edits.accounts, held]; rfl
      | some a => rw [becomes k a held, Option.map_some, (mails k a held).1]; rfl
    refine ⟨fun k => ⟨memory k, ?_⟩, fun k old new held now => ?_⟩
    · rw [← memory]
      unfold Store.mail
      rw [← (agrees.follows (brings.lockstep room)).accounts]
    · rw [becomes k old held] at now
      obtain rfl := Option.some.inj now
      obtain ⟨same, cap⟩ := mails k old held
      by_cases quiet : arrived p.posted k = []
      · rw [same]
        exact .inl (length_mailbox_le quiet)
      · have stay : p.removed = [] := does.one_way.resolve_right fun none => quiet (by rw [none]; rfl)
        refine .inr ?_
        rw [cap quiet, same, length_mailbox stay]
        exact (room k old held).resolve_left quiet

theorem carries_same (same : db'.accounts = db.accounts) (agrees : Agrees db') : Carries {} db db' := by
  have mailbox : ∀ k (memos : List Memo), ({} : Plan).mailbox k memos = memos := fun k memos => by
    rw [mailbox_posted]
    exact List.append_nil memos
  have memory : ∀ k, db'.mail k = (db.mail k).map (({} : Plan).mailbox k) := by
    intro k
    unfold Store.mail
    rw [same, funext (mailbox k)]
    exact Option.map_id'.symm
  refine ⟨fun k => ⟨memory k, ?_⟩, fun k old new held now => ?_⟩
  · rw [← memory]
    unfold Store.mail
    rw [← agrees.accounts]
  · rw [same, held] at now
    exact .inl (Option.some.inj now ▸ Nat.le_refl _)

theorem does_step {a : Act} {m : StateM Db Unit} (agrees : Agrees db) (does : Does (plan u db a) m db) (same : step u db a = (m.run db).2) :
    (Kept u db a ↔ Fits u db a) ∧ (Fits u db a → Agrees (step u db a)) := by
  unfold Kept Fits
  rw [same]
  refine ⟨does.carries_iff agrees, fun room => ?_⟩
  obtain ⟨f, brings, -⟩ := does.brings
  exact agrees.follows (brings.lockstep room)

theorem same_step {a : Act} (empty : plan u db a = {}) (same : (step u db a).accounts = db.accounts)
    (agrees : Agrees (step u db a)) :
    (Kept u db a ↔ Fits u db a) ∧ (Fits u db a → Agrees (step u db a)) := by
  unfold Kept Fits
  rw [empty]
  exact ⟨⟨fun _ _ _ _ => .inl rfl, fun _ => carries_same same agrees⟩, fun _ => agrees⟩

theorem agrees_compact (agrees : Agrees db) (env : Env) : Agrees (db.step (.compact env)) where
  wf := Db.wf_step agrees.wf _
  accounts := by
    rw [Db.step_compact]
    unfold replay
    rw [EventLog.eventsOf_compact]
    split
    · rw [show fold {} (db.toStore.snapshot env) = db.toStore.recovered env.now from
        Store.rebuilds_snapshot agrees.wf env]
      rfl
    · exact agrees.accounts

theorem kept_iff_fits (agrees : Agrees db) (reliable : db.Reliable) (a : Act) :
    (Kept u db a ↔ Fits u db a) ∧ (Fits u db a → Agrees (step u db a)) := by
  cases a with
  | command env «from» operAccounts args =>
      refine does_step agrees ?_ rfl
      unfold plan
      dsimp only
      cases held : «from».account with
      | none =>
          unfold onCommand
          rw [held]
          exact does_pure reliable
      | some account => exact does_command reliable held
  | notify env «by» target text online => exact does_step agrees (does_notify reliable) rfl
  | compact env =>
      refine same_step rfl ?_ (agrees_compact agrees env)
      change (db.step (.compact env)).accounts = _
      rw [Db.step_compact]
  | reopen =>
      have wf : (db.step .reopen).Wf := Db.wf_step agrees.wf _
      refine same_step rfl ?_ ⟨wf, rfl⟩
      change (replay (EventLog.open' db.log.origin db.log.entries).entries).accounts = db.accounts
      rw [EventLog.open_entries, ← agrees.accounts]
  | faults outcomes => exact same_step rfl rfl ⟨agrees.wf, agrees.accounts⟩

/-- Over any run on a log that takes writes: every step leaves every mailbox as it is asked to,
in memory and in the log, and none above its limit, exactly where every mailbox has room for
what it is left. -/
theorem mailboxes_kept_iff (u : Unicode) (origin : String) (file : List LogEntry) (acts : List Act) :
    Along (step u) (fun db a => db.Reliable ∧ Kept u db a) (Db.open' origin file) acts ↔
      Along (step u) (fun db a => db.Reliable ∧ Fits u db a) (Db.open' origin file) acts := by
  have start : Agrees (Db.open' origin file) := ⟨Db.wf_open origin file, rfl⟩
  constructor
  · intro run
    refine run.of_invariant (I := Agrees) (fun db a agrees ok => ?_) (fun db a agrees ok => ?_) start
    · obtain ⟨same, next⟩ := kept_iff_fits agrees ok.1 a
      exact next (same.mp ok.2)
    · exact ⟨ok.1, (kept_iff_fits agrees ok.1 a).1.mp ok.2⟩
  · intro run
    refine run.of_invariant (I := Agrees) (fun db a agrees ok => ?_) (fun db a agrees ok => ?_) start
    · exact (kept_iff_fits agrees ok.1 a).2 ok.2
    · exact ⟨ok.1, (kept_iff_fits agrees ok.1 a).1.mpr ok.2⟩

/-- The log of alice's registration. -/
def aliceRegistered : List LogEntry :=
  (after Db.step (Db.fresh "a")
    [.call .still (.registerPrepared "alice" ⟨"v", "v", @rfl Bool false⟩ none)]).log.entries

def lower : Unicode := ⟨Char.isAlpha, fun c => [c.toLower]⟩

def alice : ChanServ.Sender := ⟨"1", "alice", some "alice", {}⟩

/-- Alice wants no memos, and bob gives her access to his channel while she is away. -/
def accessWhileAway : List Act :=
  [.command .still alice [] ["SET", "LIMIT", "0"], .notify .still "bob" "alice" "bob added you" false]

/-- She is left a memo that a restart loses. -/
theorem mailbox_overfull :
    ¬ ∀ (u : Unicode) (origin : String) (file : List LogEntry) (acts : List Act),
      Along (step u) (fun db _ => db.Reliable) (Db.open' origin file) acts →
        Along (step u) (Kept u) (Db.open' origin file) acts := by
  intro kept
  have run := kept lower "a" aliceRegistered accessWhileAway ⟨⟨rfl, rfl⟩, ⟨by decide +kernel, by decide +kernel⟩, trivial⟩
  have same := (run.2.1.1 "alice").1.trans (run.2.1.1 "alice").2.symm
  exact absurd same (by decide +kernel)

end MemoServ

end Echo
