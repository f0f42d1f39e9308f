import Echo.ChanServ.Command
import Echo.Login.Doors
import Echo.Panel.Dates

/-!
MemoServ (`modules/memoserv`): memos left on registered accounts, and the lists in which
their owners read and delete them by number.

SEND and RSEND ask whether a mailbox is full. SENDALL, STAFF, the receipts of memos read
and what other services leave for those who are away do not. Notices are left out.
-/

namespace Echo

open Echo.Lib

namespace Db

variable (db : Db) (account : String)

/-- An account's memos, oldest first. -/
def memoList : List Memo := (db.accounts[key account]?).elim [] (·.memos)

def memoLimitOf : Option Nat := (db.accounts[key account]?).bind (·.memoLimit)

def memoIgnores : List String := (db.accounts[key account]?).elim [] (·.memoIgnore)

def memoIsIgnored (sender : String) : Bool :=
  (db.accounts[key account]?).any fun a => a.memoIgnore.any (eqIgnoreAsciiCase · sender)

end Db

namespace MemoServ

/-- A full mailbox rejects new memos, so nobody can be flooded. -/
def MAX_MEMOS : Nat := 30

def MAX_IGNORE : Nat := 50

section Commands

variable (env : Env) (u : Unicode) («from» : ChanServ.Sender) (account : String) (args : List String)

/-- Leave a memo; whether the store takes it is only told. -/
def post (target sender text : String) (receipt : Bool) : StateM Db Unit := do
  let _ ← (Db.memoSend env target sender text receipt).run

/-- Whom SEND and RSEND leave a memo for, past their checks. -/
def addressee (db : Db) : Option String :=
  if args.length < 3 then none
  else
    match args[1]?.bind db.resolveAccount with
    | none => none
    | some dest =>
        if (db.memoLimitOf dest).getD MAX_MEMOS ≤ (db.memoList dest).length then none
        else if db.memoIsIgnored dest account then none
        else some dest

/-- `SEND` and `RSEND <nick> <text>` -/
def send (receipt : Bool) : StateM Db Unit := do
  match addressee account args (← get) with
  | none => pure ()
  | some dest => post env dest account (joinWords (args.drop 2)) receipt

def receiptText (reader : String) (ts : Nat) : String :=
  reader ++ " has read the memo you sent them of " ++ (humanTime (UInt64.ofNat ts)).getD "" ++ "."

/-- The sender of a memo that was sent by RSEND is told when it is first read. -/
def sendReceipt (reader : String) (m : Memo) : StateM Db Unit :=
  if m.receipt && !m.read then post env m.sender "MemoServ" (receiptText reader m.ts) false
  else pure ()

/-- Read the memo at a position. -/
def readOne (i : Nat) : StateM Db Unit := do
  match ← Db.memoRead account i with
  | some m => sendReceipt env account m
  | none => pure ()

/-- A number of a list, as its position. -/
def position (numstr : String) : Option Nat :=
  ((parseUnsigned numstr.toList).filter (1 ≤ ·)).map (· - 1)

/-- The positions that `READ <num>|NEW|ALL` names. -/
def readTargets (db : Db) : List Nat :=
  match args[1]?.map toAsciiUppercase with
  | some "NEW" => ((db.memoList account).zipIdx.filter fun (m, _) => !m.read).map Prod.snd
  | some "ALL" => (db.memoList account).zipIdx.map Prod.snd
  | some numstr => (position numstr).toList
  | none => []

def read : StateM Db Unit := do
  (readTargets account args (← get)).forM (readOne env account)

/-- `DEL <num>|ALL`, the mailbox from its end. -/
def del : StateM Db Unit := do
  match args[1]?.map toAsciiUppercase with
  | some "ALL" =>
      let count := ((← get).memoList account).length
      (List.range count).reverse.forM fun i => do
        let _ ← Db.memoDel account i
  | some numstr =>
      match position numstr with
      | none => pure ()
      | some i => do
          let _ ← Db.memoDel account i
  | none => pure ()

/-- `CANCEL <nick>` -/
def cancel : StateM Db Unit := do
  match args[1]?.bind (← get).resolveAccount with
  | none => pure ()
  | some dest => do
      let _ ← Db.memoCancel dest account

/-- Every account, in the order of the table. -/
def everyone (db : Db) : List String :=
  ((env.values db.accounts).filter fun a => globMatch u "*" a.name).map (·.name)

/-- `SENDALL <text>` -/
def sendall : StateM Db Unit := do
  if !«from».privs.has .admin then pure ()
  else if args.length < 2 then pure ()
  else (everyone env u (← get)).forM fun name => post env name account (joinWords (args.drop 1)) false

/-- The accounts of the configured operators and of those granted, each once. -/
def operators (operAccounts : List String) (db : Db) : List String :=
  let granted := (env.entries db.net.opers).filter fun (_, g) => live env.now g.expires
  (operAccounts ++ granted.map Prod.fst).foldl (fun seen name =>
    match db.resolveAccount name with
    | none => seen
    | some canon => if seen.contains canon then seen else seen ++ [canon]) []

/-- `STAFF <text>` -/
def staff (operAccounts : List String) : StateM Db Unit := do
  if !«from».privs.has .admin then pure ()
  else if args.length < 2 then pure ()
  else
    (operators env operAccounts (← get)).forM fun name =>
      post env name account (joinWords (args.drop 1)) false

/-- `IGNORE ADD <nick> | DEL <nick>` -/
def ignore : StateM Db Unit := do
  let db ← get
  let target := args[2]?.map fun nick => (db.resolveAccount nick).getD nick
  match args[1]?.map toAsciiUppercase, target with
  | some "ADD", some target =>
      if MAX_IGNORE ≤ (db.memoIgnores account).length then pure ()
      else do
        let _ ← Db.memoIgnoreAdd account target
  | some "DEL", some target | some "REMOVE", some target => do
      let _ ← Db.memoIgnoreDel account target
  | _, _ => pure ()

/-- The limit that `SET LIMIT` asks for, none for the network's. -/
def readLimit : Option (Option Nat) :=
  match args[2]? with
  | none => some none
  | some n =>
      if eqIgnoreAsciiCase n "NONE" || eqIgnoreAsciiCase n "OFF" then some none
      else ((parseUnsigned n.toList).filter (· ≤ MAX_MEMOS)).map some

/-- `SET NOTIFY {ON|OFF}` and `SET LIMIT <n>|NONE` -/
def set : StateM Db Unit := do
  match args[1]?.map toAsciiUppercase with
  | some "NOTIFY" =>
      match args[2]?.map toAsciiUppercase with
      | some "ON" => do
          let _ ← Db.setMemoNotify account true
      | some "OFF" => do
          let _ ← Db.setMemoNotify account false
      | _ => pure ()
  | some "LIMIT" =>
      match readLimit args with
      | none => pure ()
      | some limit => do
          let _ ← Db.setMemoLimit account limit
  | _ => pure ()

/-- A command of someone identified; `operAccounts` are the configured operators. -/
def onCommand (operAccounts : List String) : StateM Db Unit :=
  match «from».account with
  | none => pure ()
  | some account =>
      match args.head?.map toAsciiUppercase with
      | some "SEND" => send env account args false
      | some "RSEND" => send env account args true
      | some "READ" => read env account args
      | some "DEL" | some "DELETE" => del account args
      | some "CANCEL" => cancel account args
      | some "SENDALL" => sendall env u «from» account args
      | some "STAFF" => staff env «from» account args operAccounts
      | some "IGNORE" => ignore account args
      | some "SET" => set account args
      | _ => pure ()

/-- What another service leaves for an account that it did something to (`notify_or_memo`). -/
def notifyOrMemo («by» target text : String) (online : Bool) : StateM Db Unit :=
  if target.toList.head? = some '!' || eqIgnoreAsciiCase «by» target then pure ()
  else if online then pure ()
  else post env target «by» text false

end Commands

/-! ### Runs -/

/-- One thing that happens to the mailboxes. -/
inductive Act where
  | command (env : Env) («from» : ChanServ.Sender) (operAccounts args : List String)
  | notify (env : Env) («by» target text : String) (online : Bool)
  | compact (env : Env)
  | reopen
  /-- What the file will answer to the next writes. -/
  | faults (outcomes : List Bool)

variable (u : Unicode)

def step (db : Db) : Act → Db
  | .command env «from» operAccounts args => ((onCommand env u «from» args operAccounts).run db).2
  | .notify env «by» target text online => ((notifyOrMemo env «by» target text online).run db).2
  | .compact env => db.step (.compact env)
  | .reopen => db.step .reopen
  | .faults outcomes => db.step (.faults outcomes)

end MemoServ

end Echo
