import SmirklyAuth.Protocol.Transactions
import SmirklyAuth.System

/-!
# `SmirklyAuth.Protocol.SignUpRows`: the account that a sign-up leaves

`Registered app cmd user` says that the row `user` has the identifiers of the sign-up `cmd`:
the normal forms of what was typed. The transaction of a sign-up stores such a row.
-/

set_option autoImplicit false

namespace SmirklyAuth

/-- The row has the identifiers of an accepted sign-up, in their normal forms. -/
structure Registered (app : App) (cmd : SignUpCommand) (user : User) : Prop where
  accepted : ∃ input, signUpValidateAndNormalize app.signUpPolicy cmd = .ok input
  username : user.username = Username.normalize cmd.username
  email : user.email = cmd.email.map Email.normalize
  phone : user.phone = cmd.phone.map Phone.normalize

section

variable {app : App} {cmd : SignUpCommand}

/-- The optional identifiers of an accepted sign-up. -/
theorem map_value_of_mapM {α : Type} {create : Str → Except Str α} {value : α → Str}
    {normalize : Str → Str} (hcreate : ∀ raw a, create raw = .ok a → value a = normalize raw)
    {raw? : Option Str} {a? : Option α} (h : raw?.mapM create = .ok a?) :
    a?.map value = raw?.map normalize := by
  cases raw? with
  | none =>
    obtain rfl := Except.ok.inj h
    rfl
  | some raw =>
    obtain ⟨a, ha, hsome⟩ := except_bind_eq_ok h
    obtain rfl := Except.ok.inj hsome
    simp only [Option.map_some, hcreate raw a ha]

/-- The row has the identifiers of the sign-up. -/
theorem registered_of_signUpTx {ports : Ports} {policy : EmailVerificationPolicy}
    {input : NormalizedSignUpInput} {hash : Str} {m : RequestMeta} {i : Input} {db db' : Db}
    {user : User} (hin : signUpValidateAndNormalize app.signUpPolicy cmd = .ok input)
    (htx : IdentityService.signUpTx ports policy
      (UserFactory.createFromSignUp input.username.value hash (input.email.map (·.value))
        (input.phone.map (·.value))) m i db = .ok (user, db')) :
    Registered app cmd user := by
  have haccepted := signUpAccepted hin
  obtain ⟨⟨husername, hemail, hphone⟩, _⟩ := signUpTx_eq_ok htx
  refine ⟨⟨input, hin⟩, ?_, ?_, ?_⟩
  · rw [husername]
    exact Username.create_eq_ok.mp haccepted.username
  · rw [hemail]
    exact map_value_of_mapM (fun _ _ => Email.create_eq_ok.mp) haccepted.email
  · rw [hphone]
    exact map_value_of_mapM (fun _ _ => Phone.create_eq_ok.mp) haccepted.phone

/-- The transaction of a sign-up inserts the row that it returns. -/
theorem mem_of_signUpTx {ports : Ports} {policy : EmailVerificationPolicy} {data : NewUserData}
    {m : RequestMeta} {i : Input} {db db' : Db} {user : User}
    (htx : IdentityService.signUpTx ports policy data m i db = .ok (user, db')) :
    user ∈ db'.users := by
  obtain ⟨-, -, ⟨-, rfl⟩ | ⟨_, -, hissue⟩⟩ := signUpTx_eq_ok htx
  · exact List.mem_append_right _ (List.mem_singleton_self _)
  · obtain ⟨_, _, -, -, -, -, rfl⟩ := issueCodeTx_eq_ok hissue
    exact List.mem_append_right _ (List.mem_singleton_self _)

end

end SmirklyAuth
