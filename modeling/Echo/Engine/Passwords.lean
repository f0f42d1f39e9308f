import Echo.Engine.Register

/-!
Which passwords come to be derived. Each command that takes one asks the policy itself
before it hands the password on; RESETPASS and the relay's REGISTER hand it on as it is.
-/

namespace Echo

open Echo.Lib

/-- Who sent a command: the nick, the account it is logged into, and whether it may
administer services. -/
structure Commander where
  uid : String
  nick : String
  account : Option String
  admin : Bool

/-- A change of password handed to the link layer. -/
structure DeferPassword where
  account : String
  password : String
  agent : String
  uid : String

/-- What is derived off the lock. -/
inductive Derivation where
  | register (request : DeferRegister)
  | password (change : DeferPassword)

namespace Derivation

/-- The account the password is to protect. -/
def account : Derivation → String
  | .register r => r.account
  | .password c => c.account

def plaintext : Derivation → String
  | .register r => r.password
  | .password c => c.password

end Derivation

/-- What a command comes to: a notice, a derivation, or what another command or option
does, none of which derives a password to store. -/
inductive CommandReply where
  | notice (text : String)
  | defer (d : Derivation)
  | other

def CommandReply.ofRegister : Except String DeferRegister → CommandReply
  | .ok request => .defer (.register request)
  | .error text => .notice text

/-- What a request meets outside the store: the clock, the wait before another code,
the code drawn, and the engine at the time of the pre-check with what the rate limiter,
the flood check and the mail servers' blocklist answer. -/
structure Outside where
  now : Nat
  wait : Nat
  drawn : String
  later : Engine
  allows : Bool
  flood : Bool
  mxRejects : Bool

namespace Engine

variable (u : Unicode)

/-- Ask the policy, and hand the change on. -/
def changePassword (me : String) (sender : Commander) (account password : String) : CommandReply :=
  match validatePassword password account with
  | some reason => .notice reason
  | none => .defer (.password ⟨account, password, me, sender.uid⟩)

/-- The options that the website owns where it owns the accounts. -/
def credential (sub : Option String) : Bool :=
  sub == some "PASSWORD" || sub == some "PASS" || sub == some "EMAIL"

/-- `SET PASSWORD <newpassword>`, among the options of SET. -/
def nickservSet (e : Engine) (me : String) (sender : Commander) (args : List String) :
    CommandReply :=
  match sender.account with
  | none => .notice "You need to be logged in. Identify to NickServ first."
  | some account =>
      let sub := args[1]?.map toAsciiUppercase
      if e.externalAccounts && credential sub then
        .notice "That's managed on the website — change it there."
      else if sub = some "PASSWORD" ∨ sub = some "PASS" then
        match args[2]? with
        | none => .notice "Syntax: SET PASSWORD <newpassword>"
        | some password => changePassword me sender account password
      else .other

/-- `SASET <account> PASSWORD <newpassword>`, among the options of SASET. -/
def nickservSaset (e : Engine) (me : String) (sender : Commander) (args : List String) :
    CommandReply :=
  if !sender.admin then .notice "Access denied — that command is for services operators."
  else
    match args[1]? with
    | none =>
        .notice ("Syntax: SASET <account> PASSWORD <newpassword> | EMAIL [address] | " ++
          "GREET [message]")
    | some target =>
        match e.resolveAccount target with
        | none => .notice (bold target ++ " isn't registered.")
        | some account =>
            let sub := args[2]?.map toAsciiUppercase
            if e.externalAccounts && credential sub then
              .notice "That's managed on the website — change it there."
            else if sub = some "PASSWORD" ∨ sub = some "PASS" then
              match args[3]? with
              | none => .notice "Syntax: SASET <account> PASSWORD <newpassword>"
              | some password => changePassword me sender account password
            else .other

/-- `RESETPASS <account>`: e-mail a code to the address on file. -/
def sendReset (e : Engine) (o : Outside) (name : String) : Engine × CommandReply :=
  match e.resolveAccount name with
  | none => (e, .notice (bold name ++ " isn't registered."))
  | some canonical =>
      match (e.db.accounts[key canonical]?).bind (·.email) with
      | none => (e, .notice "That account has no email on file, so it can't be reset.")
      | some _ =>
          if o.wait > 0 then
            (e, .notice ("A code was just sent — please wait " ++ bold (toString o.wait) ++
              "s before requesting another."))
          else
            ({ e with toSession := e.toSession.issueCode o.now canonical .reset o.drawn },
              .notice ("A reset code has been emailed to the address on file for " ++
                bold canonical ++ "."))

/-- `RESETPASS <account> <code> <newpassword>`: hand the new password on as it is. -/
def takeReset (e : Engine) (o : Outside) (me : String) (sender : Commander)
    (name code newpass : String) : Engine × CommandReply :=
  match e.resolveAccount name with
  | none => (e, .notice (bold name ++ " isn't registered."))
  | some canonical =>
      match e.toSession.takeCode o.now canonical .reset code with
      | (s, false) => ({ e with toSession := s }, .notice "Invalid or expired reset code.")
      | (s, true) =>
          ({ e with toSession := s }, .defer (.password ⟨canonical, newpass, me, sender.uid⟩))

def nickservResetpass (e : Engine) (o : Outside) (me : String) (sender : Commander)
    (args : List String) : Engine × CommandReply :=
  if !e.db.emailEnabled then (e, .notice "Password reset by email isn't available here.")
  else
    match args[1]?, args[2]?, args[3]? with
    | some name, none, none => e.sendReset o name
    | some name, some code, some newpass => e.takeReset o me sender name code newpass
    | _, _, _ => (e, .notice "Syntax: RESETPASS <account> [<code> <newpassword>]")

/-- NickServ's dispatcher, as far as passwords go. -/
def nickservCommand (e : Engine) (o : Outside) (me : String) (sender : Commander)
    (args : List String) : Engine × CommandReply :=
  match args[0]?.map toAsciiUppercase with
  | some "REGISTER" => (e, .ofRegister (e.nickservRegister u me sender.uid sender.nick args))
  | some "SAREGISTER" => (e, .ofRegister (e.nickservSaregister u me sender.uid sender.admin args))
  | some "SET" => (e, e.nickservSet me sender args)
  | some "SASET" => (e, e.nickservSaset me sender args)
  | some "RESETPASS" =>
      if e.externalAccounts then (e, .notice managedElsewhere)
      else e.nickservResetpass o me sender args
  | _ => (e, .other)

end Engine

/-- A command to NickServ, or a request over the account-registration relay. -/
inductive PasswordRequest where
  | command (me : String) (sender : Commander) (args : List String)
  | relay (reqid origin kind account p2 p3 : String)

namespace PasswordRequest

variable (u : Unicode)

def reply (e : Engine) (o : Outside) : PasswordRequest → CommandReply
  | .command me sender args => (e.nickservCommand u o me sender args).2
  | .relay reqid origin kind account p2 p3 =>
      if eqIgnoreAsciiCase kind "REGISTER" then
        .defer (.register (Engine.accountRequest reqid origin kind account p2 p3))
      else .other

/-- Whether the link layer derives what it was handed: a change always, a registration
where the pre-check and the mail servers let it through. -/
def derives (o : Outside) : Derivation → Bool
  | .register r => (o.later.preRegisterCheck u r o.allows o.flood).isNone && !o.mxRejects
  | .password _ => true

/-- The account and the plaintext that the derivation is given. -/
def handed (e : Engine) (o : Outside) (r : PasswordRequest) : Option (String × String) :=
  match r.reply u e o with
  | .defer d => if derives u o d then some (d.account, d.plaintext) else none
  | _ => none

/-- Every password that is derived satisfies the policy for its account. -/
def Lawful (e : Engine) (o : Outside) (r : PasswordRequest) : Prop :=
  ∀ account plaintext, r.handed u e o = some (account, plaintext) →
    Engine.validatePassword plaintext account = none

/-- The two requests whose password is not checked bring one that satisfies the policy:
a RESETPASS whose code is accepted, and a REGISTER of the relay that is let through. -/
def Spares (e : Engine) (o : Outside) : PasswordRequest → Prop
  | .command _ _ args =>
      args[0]?.map toAsciiUppercase = some "RESETPASS" → e.externalAccounts = false →
        e.db.emailEnabled = true → ∀ name code newpass canonical, args[1]? = some name →
          args[2]? = some code → args[3]? = some newpass → e.resolveAccount name = some canonical →
            (e.toSession.takeCode o.now canonical .reset code).2 = true →
              Engine.validatePassword newpass canonical = none
  | .relay reqid origin kind account p2 p3 =>
      eqIgnoreAsciiCase kind "REGISTER" = true →
        derives u o (.register (Engine.accountRequest reqid origin kind account p2 p3)) = true →
          Engine.validatePassword p3 account = none

variable {u : Unicode} {e : Engine} {o : Outside}

/-! ### Replies that the policy was asked about -/

/-- A reply that hands on no password the policy refuses. -/
def Checked (reply : CommandReply) : Prop :=
  ∀ d, reply = .defer d → Engine.validatePassword d.plaintext d.account = none

theorem checked_notice (text : String) : Checked (.notice text) := nofun

theorem checked_other : Checked .other := nofun

theorem checked_change (me : String) (sender : Commander) (account password : String) :
    Checked (Engine.changePassword me sender account password) := by
  unfold Engine.changePassword
  split
  · exact checked_notice _
  · rename_i valid
    intro d handed
    cases handed
    exact valid

theorem checked_vetRequest (request : DeferRegister) :
    Checked (.ofRegister (e.vetRequest u request)) := by
  unfold Engine.vetRequest
  split
  · exact checked_notice _
  · rename_i valid
    split
    · exact checked_notice _
    split
    · exact checked_notice _
    · intro d handed
      cases handed
      exact valid

theorem checked_register (me uid nick : String) (args : List String) :
    Checked (.ofRegister (e.nickservRegister u me uid nick args)) := by
  unfold Engine.nickservRegister
  split
  · exact checked_notice _
  split
  · exact checked_notice _
  · exact checked_vetRequest _

theorem checked_saregister (me uid : String) (admin : Bool) (args : List String) :
    Checked (.ofRegister (e.nickservSaregister u me uid admin args)) := by
  unfold Engine.nickservSaregister
  split
  · exact checked_notice _
  split
  · exact checked_notice _
  split
  · exact checked_vetRequest _
  · exact checked_notice _

theorem checked_set (me : String) (sender : Commander) (args : List String) :
    Checked (e.nickservSet me sender args) := by
  unfold Engine.nickservSet
  split
  · exact checked_notice _
  dsimp only
  split
  · exact checked_notice _
  split
  · split
    · exact checked_notice _
    · exact checked_change _ _ _ _
  · exact checked_other

theorem checked_saset (me : String) (sender : Commander) (args : List String) :
    Checked (e.nickservSaset me sender args) := by
  unfold Engine.nickservSaset
  split
  · exact checked_notice _
  split
  · exact checked_notice _
  split
  · exact checked_notice _
  dsimp only
  split
  · exact checked_notice _
  split
  · split
    · exact checked_notice _
    · exact checked_change _ _ _ _
  · exact checked_other

theorem checked_sendReset (name : String) : Checked (e.sendReset o name).2 := by
  unfold Engine.sendReset
  split
  · exact checked_notice _
  split
  · exact checked_notice _
  split
  · exact checked_notice _
  · exact checked_notice _

/-- Completing a reset hands on the new password where the code is accepted. -/
theorem takeReset_eq (me : String) (sender : Commander) (name code newpass : String) :
    (∃ text, (e.takeReset o me sender name code newpass).2 = .notice text ∧
      ∀ canonical, e.resolveAccount name = some canonical →
        (e.toSession.takeCode o.now canonical .reset code).2 = false) ∨
      ∃ canonical, e.resolveAccount name = some canonical ∧
        (e.toSession.takeCode o.now canonical .reset code).2 = true ∧
        (e.takeReset o me sender name code newpass).2 =
          .defer (.password ⟨canonical, newpass, me, sender.uid⟩) := by
  unfold Engine.takeReset
  cases found : e.resolveAccount name with
  | none => exact .inl ⟨_, rfl, nofun⟩
  | some canonical =>
      dsimp only
      rcases taken : e.toSession.takeCode o.now canonical .reset code with ⟨s, _ | _⟩
      · refine .inl ⟨_, rfl, fun other same => ?_⟩
        cases same
        rw [taken]
      · exact .inr ⟨canonical, rfl, by rw [taken], rfl⟩

/-! ### Requests -/

theorem lawful_of_checked {r : PasswordRequest} (checked : Checked (r.reply u e o)) :
    r.Lawful u e o := by
  intro account plaintext handedOver
  unfold handed at handedOver
  split at handedOver
  · rename_i d replied
    split at handedOver
    · cases handedOver
      exact checked d replied
    · contradiction
  · contradiction

/-- A derivation that is handed on is lawful if, where it is made, it satisfies the
policy. -/
theorem lawful_defer {r : PasswordRequest} {d : Derivation} (replied : r.reply u e o = .defer d) :
    r.Lawful u e o ↔
      (derives u o d = true → Engine.validatePassword d.plaintext d.account = none) := by
  unfold Lawful handed
  rw [replied]
  dsimp only
  cases derives u o d with
  | true =>
      constructor
      · intro lawful _
        exact lawful d.account d.plaintext rfl
      · rintro valid account plaintext handedOver
        cases handedOver
        exact valid rfl
  | false => simp

/-- A request that is not RESETPASS passes the policy or hands nothing on. -/
theorem checked_command {me : String} {sender : Commander} {args : List String}
    (other : args[0]?.map toAsciiUppercase ≠ some "RESETPASS") :
    Checked ((e.nickservCommand u o me sender args).2) := by
  unfold Engine.nickservCommand
  split
  · exact checked_register _ _ _ _
  · exact checked_saregister _ _ _ _
  · exact checked_set _ _ _
  · exact checked_saset _ _ _
  · rename_i resets
    exact absurd resets other
  · exact checked_other

/-- The reset that takes a code is the one that hands a password on. -/
theorem lawful_reset (me : String) (sender : Commander) {args : List String}
    (replied : reply u e o (.command me sender args) =
      (match args[1]?, args[2]?, args[3]? with
        | some name, none, none => e.sendReset o name
        | some name, some code, some newpass => e.takeReset o me sender name code newpass
        | _, _, _ => (e, .notice "Syntax: RESETPASS <account> [<code> <newpassword>]")).2) :
    Lawful u e o (.command me sender args) ↔
      ∀ name code newpass canonical, args[1]? = some name → args[2]? = some code →
        args[3]? = some newpass → e.resolveAccount name = some canonical →
          (e.toSession.takeCode o.now canonical .reset code).2 = true →
            Engine.validatePassword newpass canonical = none := by
  split at replied
  · rename_i name first second third
    refine iff_of_true (lawful_of_checked ?_) ?_
    · rw [replied]
      exact checked_sendReset name
    · intro _ _ _ _ _ held
      rw [second] at held
      contradiction
  · rename_i name code newpass first second third
    rcases takeReset_eq me sender name code newpass (e := e) (o := o) with
      ⟨text, noticed, refused⟩ | ⟨canonical, found, accepted, handedOn⟩
    · refine iff_of_true (lawful_of_checked ?_) ?_
      · rw [replied, noticed]
        exact checked_notice text
      · intro name' code' newpass' canonical same same' same'' found accepted
        rw [first] at same
        rw [second] at same'
        cases same
        cases same'
        rw [refused canonical found] at accepted
        contradiction
    · rw [lawful_defer (replied.trans handedOn)]
      constructor
      · intro valid name' code' newpass' canonical' same same' same'' found' _
        rw [first] at same
        rw [third] at same''
        cases same
        cases same''
        rw [found] at found'
        cases found'
        exact valid rfl
      · intro valid _
        exact valid name code newpass canonical first second third found accepted
  · rename_i notFirst notSecond
    refine iff_of_true (lawful_of_checked ?_) ?_
    · rw [replied]
      exact checked_notice _
    · intro name code newpass _ first second third
      exact absurd third (notSecond name code newpass first second)

theorem lawful_resetpass (me : String) (sender : Commander) {args : List String}
    (resets : args[0]?.map toAsciiUppercase = some "RESETPASS") :
    Lawful u e o (.command me sender args) ↔ Spares u e o (.command me sender args) := by
  have replied : reply u e o (.command me sender args) =
      (if e.externalAccounts then (e, .notice Engine.managedElsewhere)
        else e.nickservResetpass o me sender args).2 := by
    change (e.nickservCommand u o me sender args).2 = _
    unfold Engine.nickservCommand
    rw [resets]
    rfl
  simp only [Spares, resets, forall_const]
  cases external : e.externalAccounts with
  | true =>
      rw [external, if_pos rfl] at replied
      refine iff_of_true (lawful_of_checked ?_) (fun own => absurd own (by simp))
      rw [replied]
      exact checked_notice _
  | false =>
      rw [external, if_neg Bool.false_ne_true] at replied
      simp only [forall_const]
      unfold Engine.nickservResetpass at replied
      cases mails : e.db.emailEnabled with
      | false =>
          rw [mails] at replied
          refine iff_of_true (lawful_of_checked ?_) (fun on => absurd on (by simp))
          rw [replied]
          exact checked_notice _
      | true =>
          rw [mails, Bool.not_true, if_neg Bool.false_ne_true] at replied
          simp only [forall_const]
          exact lawful_reset me sender replied

/-- What a request has derived satisfies the policy for its account exactly when it is
no reset or relayed registration that brings a password the policy would refuse. -/
theorem lawful_iff (u : Unicode) (e : Engine) (o : Outside) (r : PasswordRequest) :
    r.Lawful u e o ↔ r.Spares u e o := by
  cases r with
  | command me sender args =>
      by_cases resets : args[0]?.map toAsciiUppercase = some "RESETPASS"
      · exact lawful_resetpass me sender resets
      · refine iff_of_true (lawful_of_checked (checked_command resets)) ?_
        exact fun again => absurd again resets
  | relay reqid origin kind account p2 p3 =>
      by_cases registers : eqIgnoreAsciiCase kind "REGISTER" = true
      · have replied : reply u e o (.relay reqid origin kind account p2 p3) =
            .defer (.register (Engine.accountRequest reqid origin kind account p2 p3)) := by
          simp only [reply, registers, if_true]
        rw [lawful_defer replied]
        simp only [Spares, registers, forall_const]
        rfl
      · refine iff_of_true (lawful_of_checked ?_) (fun again => absurd again registers)
        simp only [reply, registers]
        exact checked_other

/-- Alice has been e-mailed a code. -/
def coded : Engine where
  toSession := Session.issueCode 0 "Alice" .reset "CODE"
    { db := { after Db.step (Db.fresh "a")
        [.call .still (.registerPrepared "Alice" ⟨"a", "a", @rfl Bool false⟩ none)] with
        emailEnabled := true } }

def quiet : Outside := ⟨60, 0, "", coded, true, false, false⟩

def ascii : Unicode := ⟨Char.isAlpha, fun c => [c.toLower]⟩

/-- Her new password may be one letter, and so may that of a name registered over the
relay. -/
theorem reset_unlawful :
    ¬ Lawful ascii coded quiet
        (.command "NickServ" ⟨"AAA", "guest", none, false⟩ ["RESETPASS", "alice", "CODE", "x"]) ∧
      ¬ Lawful ascii coded quiet (.relay "1" "irc.example" "REGISTER" "bob" "*" "x") := by
  constructor
  · intro lawful
    have handedOver : handed ascii coded quiet (.command "NickServ" ⟨"AAA", "guest", none, false⟩
        ["RESETPASS", "alice", "CODE", "x"]) = some ("Alice", "x") := by decide +kernel
    exact absurd (lawful "Alice" "x" handedOver) (by decide)
  · intro lawful
    have handedOver : handed ascii coded quiet (.relay "1" "irc.example" "REGISTER" "bob" "*" "x") =
        some ("bob", "x") := by decide +kernel
    exact absurd (lawful "bob" "x" handedOver) (by decide)

end PasswordRequest

end Echo
