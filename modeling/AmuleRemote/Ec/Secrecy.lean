import AmuleRemote.Ec.Sent
import AmuleRemote.Ec.TwoRuns

/-!
# What a password can be seen by

The password goes into one request, the answer to the daemon's salt, and there only
as a hash. Two runs in which the user typed different passwords, and everything else
was the same, are the same run up to these hashes: every other request, every signal
and with them every log line and status, and the state of the worker.

## Main results

- `passwords_unseen` — two runs with different passwords
-/

namespace Amule

open Ec TwoRuns

/-- The same request, or two answers to a salt. -/
inductive SameButHash : Packet → Packet → Prop
  | same (q : Packet) : SameButHash q q
  | passwd (hash hash' : Hash16) :
      SameButHash ⟨Op.authPasswd, [.hash TagName.passwdHash hash]⟩
        ⟨Op.authPasswd, [.hash TagName.passwdHash hash']⟩

/-- Any two passwords; nothing else differs. -/
def otherPasswords : Difference where
  password _ _ := True
  request := SameButHash

section

variable [Qt]

theorem unseen_otherPasswords : Unseen otherPasswords where
  request := .same
  signal _ := rfl
  empty := rfl
  password _ _ := .passwd _ _
  reads hr := hr ▸ .refl _
  update hm hr := congrArg₂ updateClients hm hr
  sorted hm := congrArg _ (congrArg _ hm)

/-- Runs that differ in the passwords typed differ in the hashes sent, and in nothing else. -/
theorem passwords_unseen {cs cs' : List Call} (h : List.Forall₂ otherPasswords.Calls cs cs') :
    otherPasswords.Sessions (cs.foldl Session.step {}) (cs'.foldl Session.step {}) :=
  unseen_otherPasswords.steps unseen_otherPasswords.start h

end

/-- A daemon that asks for the password. -/
def Network.salting : Network where
  replies n := .ok (if n = 0 then ⟨Op.authSalt, [.integer TagName.passwdSalt 0x1234]⟩
    else ⟨Op.authOk, []⟩)

/-- A login, a search and a refresh, with this password. -/
def loginWith (password : QString) : List Call := [
  ⟨.connectToDaemon (.lit "localhost") 4712 password, .salting⟩,
  ⟨.startSearch { text := .lit "iso" }, .friendly⟩, ⟨.timeout, .friendly⟩]

/-- The two runs do send different hashes. -/
theorem passwords_unseen_loginWith :
    letI := sampleQt
    let run (password : QString) := (loginWith password).foldl Session.step {}
    otherPasswords.Sessions (run (.lit "secret")) (run (.lit "guess")) ∧
      requests (run (.lit "secret")).trace ≠ requests (run (.lit "guess")).trace :=
  letI := sampleQt
  have same (n : Network) : otherPasswords.Networks n n :=
    ⟨rfl, fun k => .refl (fun _ => rfl) (n.replies k), rfl⟩
  ⟨passwords_unseen (.cons ⟨.connectToDaemon _ _ trivial, same _⟩
    (.cons ⟨.same _, same _⟩ (.cons ⟨.same _, same _⟩ .nil))), by decide +kernel⟩

end Amule
