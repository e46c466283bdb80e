import SmirklyAuth.Proofs.ClientIp
import SmirklyAuth.Protocol.SessionRows

/-!
# `SmirklyAuth.Proofs.SessionAddress`: the address of a session and its text

The client address is a text when a session is opened, an `inet` in the table and a text again
when the session is read. `sessions_insert` casts with `NULLIF($5, '')::inet`, and both reads cast
with `ip::text`. The second cast prints the netmask length too, so the text of a session is never
the text that was recorded.

A rotation without a client address takes the text that was read and casts it back
(`CreateForRefreshRotation`). The `inet` stays the same along a chain of such rotations
(`hasAddress_of_chain`): the netmask is added once, at the first read, and again at every read.

`AddressFact` is the invariant: what the events of a call say about the addresses in the table.
-/

set_option autoImplicit false

namespace SmirklyAuth

open Interleaving

/-! ### `inet` as PostgreSQL documents it -/

/-- The casts between `text` and `inet`. -/
structure Postgres.DocumentedInet (pg : Postgres) : Prop where
  /-- The empty text is no address. -/
  inet_nil : pg.inet [] = none
  /-- The cast to text prints the address, a slash and the netmask length. -/
  inetText_eq : ∀ v, pg.inetText v = pg.host v ++ lit "/" ++ lit (toString v.netmask)
  /-- What was read from a text is printed as a text that reads as the same. -/
  inet_inetText : ∀ text v, pg.inet text = some v → pg.inet (pg.inetText v) = some v

/-- The server reads the text of an address without loss. A text without a netmask is that of one
host. -/
structure Postgres.ReadsAddresses (pg : Postgres) (inet : InetLibrary) : Prop where
  v4 : ∀ address, ∃ v, pg.inet (inet.ntop4 address) = some v ∧ pg.host v = inet.ntop4 address ∧
    v.netmask = 32
  v6 : ∀ address, ∃ v, pg.inet (inet.ntop6 address) = some v ∧ pg.host v = inet.ntop6 address ∧
    v.netmask = 128

section

variable {pg : Postgres} {inet : InetLibrary}

/-- `NULLIF($n, '')::inet` of a text that is an address. -/
theorem Postgres.DocumentedInet.inetArg_some (h : pg.DocumentedInet) {text : Str} {v : Inet}
    (hread : pg.inet text = some v) : pg.inetArg (some text) = some (some v) := by
  cases text with
  | nil =>
    rw [h.inet_nil] at hread
    cases hread
  | cons c text =>
    show (pg.inet (c :: text)).map some = some (some v)
    rw [hread]
    rfl

/-- The address of a row, printed and read again. -/
theorem Postgres.DocumentedInet.inetArg_inetText (h : pg.DocumentedInet) {text : Str} {v : Inet}
    (hread : pg.inet text = some v) : pg.inetArg (some (pg.inetText v)) = some (some v) :=
  h.inetArg_some (h.inet_inetText text v hread)

/-! ### The texts of the extractor -/

/-- The texts of addresses that were parsed. -/
def IsParsed (inet : InetLibrary) (text : Str) : Prop :=
  ∃ raw ip, parseIp inet raw = some ip ∧ ip.text = text

namespace ClientIpExtractor

variable {extractor : ClientIpExtractor inet}

/-- The client of a header is a parsed address. -/
theorem isParsed_of_forwardedClient {remote header text : Str} {remoteIp : ParsedIp}
    (hremote : parseIp inet remote = some remoteIp)
    (h : extractor.forwardedClient remoteIp header = some text) : IsParsed inet text := by
  unfold forwardedClient at h
  split at h
  · cases h
  split at h
  · cases h
  · cases h
  · rename_i front rest hheader
    -- an address of the chain, or the trusted peer itself
    have hchain : ∀ ip ∈ front :: rest ++ [remoteIp], IsParsed inet ip.text := by
      intro ip hip
      rcases List.mem_append.mp hip with hmem | hlast
      · obtain ⟨token, htoken⟩ := exists_of_mem_parseForwardedFor hheader hmem
        exact ⟨token, ip, htoken, rfl⟩
      · exact ⟨remote, ip, List.mem_singleton.mp hlast ▸ hremote, rfl⟩
    split at h
    · rename_i address haddress
      obtain rfl := Option.some.inj h
      have hmem := List.mem_of_find?_eq_some haddress
      exact hchain address (List.mem_reverse.mp hmem)
    · obtain rfl := Option.some.inj h
      exact hchain front List.mem_cons_self

/-- Whatever the extractor returns is a parsed address. -/
theorem isParsed_of_extract {request : HttpRequest} {text : Str}
    (h : extractor.extract request = some text) : IsParsed inet text := by
  unfold extract at h
  split at h
  · cases h
  rename_i remoteIp hremote
  split at h
  · exact ⟨_, remoteIp, hremote, Option.some.inj h⟩
  split at h
  · rename_i hclient
    obtain rfl := Option.some.inj h
    exact isParsed_of_forwardedClient hremote hclient
  split at h
  · rename_i hreal
    obtain rfl := Option.some.inj h
    unfold realIp at hreal
    split at hreal
    · cases hreal
    · obtain ⟨ip, hip, htext⟩ := Option.map_eq_some_iff.mp hreal
      exact ⟨_, ip, hip, htext⟩
  · exact ⟨_, remoteIp, hremote, Option.some.inj h⟩

end ClientIpExtractor

/-- The server reads every text of the extractor as the address of one host. -/
theorem Postgres.ReadsAddresses.of_isParsed (h : pg.ReadsAddresses inet) {text : Str}
    (htext : IsParsed inet text) :
    ∃ v, pg.inet text = some v ∧ pg.host v = text ∧ (v.netmask = 32 ∨ v.netmask = 128) := by
  obtain ⟨raw, ip, hip, rfl⟩ := htext
  rcases parseIp_cases hip with ⟨address, rfl⟩ | ⟨address, rfl⟩
  · obtain ⟨v, hread, hhost, hmask⟩ := h.v4 address
    exact ⟨v, hread, hhost, .inl hmask⟩
  · obtain ⟨v, hread, hhost, hmask⟩ := h.v6 address
    exact ⟨v, hread, hhost, .inr hmask⟩

end

/-! ### Addresses in a run -/

/-- The rows with an id have this address, and there is one. -/
structure HasAddress (rows : List SessionRow) (id : Uuid) (ip : Option Inet) : Prop where
  row : ∃ row, sessionsSelectById id rows = some row
  ip : ∀ row ∈ rows, row.id = id → row.ip = ip

section

variable {app : App} {r : Request} {evs : List Event} {e : Event} {db db' : Db} {id : Uuid}
  {ip : Option Inet} {rows : List SessionRow}

/-- The row that is found has the address. -/
theorem HasAddress.select (h : HasAddress rows id ip) {row : SessionRow}
    (hrow : sessionsSelectById id rows = some row) : row.ip = ip :=
  h.ip row (List.mem_of_find?_eq_some hrow) (id_of_select hrow)

/-- A new row. -/
theorem hasAddress_append {row : SessionRow} (hnew : ∀ r ∈ rows, r.id ≠ row.id) :
    HasAddress (rows ++ [row]) row.id row.ip where
  row := by
    refine ⟨row, ?_⟩
    have hnone : rows.find? (fun r => r.id == row.id) = none :=
      List.find?_eq_none.mpr fun r hr => by simpa using hnew r hr
    rw [sessionsSelectById, List.find?_append, hnone]
    simp
  ip := by
    intro row' hmem hid
    rcases List.mem_append.mp hmem with hold | hlast
    · exact absurd hid (hnew row' hold)
    · rw [List.mem_singleton.mp hlast]

/-- An update of the sessions does not write the address. -/
theorem HasAddress.run {u : Sql.Update SessionRow} (hu : Ages u) (h : HasAddress rows id ip) :
    HasAddress (u.run rows) id ip where
  row := by
    obtain ⟨row, hrow⟩ := h.row
    exact ⟨u.apply row, by rw [hu.select_run, hrow, Option.map_some]⟩
  ip := by
    intro row' hmem hid
    obtain ⟨row, hold, rfl⟩ := Sql.Update.mem_run.mp hmem
    rw [(hu.apply row).ip]
    exact h.ip row hold ((hu.apply row).id.symm.trans hid)

/-- No step changes the address of a session. -/
theorem HasAddress.step (h : HasAddress db.sessions id ip)
    (hstep : ProtocolStep app r evs e db db') : HasAddress db'.sessions id ip := by
  obtain ⟨row, hrow⟩ := h.row
  obtain ⟨row', hrow', _⟩ := hasNext_step hstep hrow
  refine ⟨⟨row', hrow'⟩, ?_⟩
  cases hstep with
  | aborted _ => exact h.ip
  | read _ => exact h.ip
  | committed hcommit =>
    intro row₁ hmem hid
    rcases (rows_commit hcommit).origin hmem with ⟨row₀, hrow₀, hlater⟩ | hnew
    · rw [hlater.ip]
      exact h.ip row₀ hrow₀ (hlater.id.symm.trans hid)
    · -- the id is taken, so no new row has it
      have htaken := hnew row (List.mem_of_find?_eq_some hrow)
      exact absurd ((id_of_select hrow).trans hid.symm) htaken

/-- `SignIn` records the address of its request. -/
theorem commits_signedIn_address (h : Commits app r evs (.signedIn id) db db')
    {cmd : SignInCommand} {m : RequestMeta} (hr : r.command = .signIn cmd m) :
    ∃ ip, app.ports.pg.inetArg m.ip = some ip ∧ HasAddress db'.sessions id ip := by
  generalize ht : TxEvent.signedIn id = t at h
  cases h with
  | signedIn htx =>
    obtain ⟨_, ip, hip, _, hnew, hid, rfl⟩ := signInTx_eq_ok htx
    obtain ⟨rfl, rfl⟩ := Command.signIn.inj hr
    rw [TxEvent.signedIn.inj ht, hid]
    exact ⟨ip, hip, hasAddress_append hnew⟩
  | _ => cases ht

/-- `Refresh` records the address of its request, or that of the session it has found. -/
theorem commits_rotated_address {old new : Uuid} (h : Commits app r evs (.rotated old new) db db')
    {cmd : RefreshCommand} {m : RequestMeta} (hr : r.command = .refresh cmd m) :
    ∃ session ip, .foundSession (some session) ∈ evs ∧ session.id = old ∧
      app.ports.pg.inetArg (m.ip.or session.ip) = some ip ∧ HasAddress db'.sessions new ip := by
  generalize ht : TxEvent.rotated old new = t at h
  cases h with
  | @rotated _ _ _ _ _ session _ _ _ _ _ _ _ _ _ hchecked hactive htx =>
    obtain ⟨ip, hip, hnew, hid, _, rfl⟩ := refreshTx_eq_ok htx
    obtain ⟨rfl, rfl⟩ := Command.refresh.inj hr
    obtain ⟨rfl, rfl⟩ := TxEvent.rotated.inj ht
    rw [hid]
    refine ⟨session, ip, by simp [refreshEvents], rfl, hip, ?_⟩
    exact (hasAddress_append hnew).run (ages_revokeAndReplace _ _ _)
  | _ => cases ht

end

/-- What an event of a call says about the addresses in the table. -/
structure AddressFact (pg : Postgres) (r : Request) (e : Event) (db : Db) : Prop where
  opened : ∀ cmd m id, r.command = .signIn cmd m → e = .committed (.signedIn id) →
    ∃ ip, pg.inetArg m.ip = some ip ∧ HasAddress db.sessions id ip
  rotated : ∀ cmd m old new, r.command = .refresh cmd m → e = .committed (.rotated old new) →
    ∃ row ip, sessionsSelectById old db.sessions = some row ∧ HasAddress db.sessions new ip ∧
      pg.inetArg (m.ip.or (row.ip.map pg.inetText)) = some ip

/-- What the calls have read and written about addresses, in every state that is reached. -/
theorem addressFact_of_reachable {app : App} {A : SysAdmission} {I : Db → Prop} {s : SysState}
    (hs : Reachable app.run A I s) : ∀ c call, s.calls c = some call →
      ∀ e ∈ own c s.trace, AddressFact app.ports.pg call.request e s.store := by
  refine Reachable.event_invariant (app_refines app) ?_ ?_ hs
  · intro s db c r e _ hstep r' e' hfact
    constructor
    · intro cmd m id hr he
      obtain ⟨ip, hip, haddress⟩ := hfact.opened cmd m id hr he
      exact ⟨ip, hip, haddress.step hstep⟩
    · intro cmd m old new hr he
      obtain ⟨row, ip, hrow, haddress, hip⟩ := hfact.rotated cmd m old new hr he
      obtain ⟨row', hrow', hlater, _⟩ := hasNext_step hstep hrow
      exact ⟨row', ip, hrow', haddress.step hstep, hlater.ip ▸ hip⟩
  · intro s db c r e hs _ hstep
    constructor
    · intro cmd m id hr he
      subst he
      exact commits_signedIn_address hstep.commits hr
    · intro cmd m old new hr he
      subst he
      obtain ⟨session, ip, hmem, rfl, hip, haddress⟩ := commits_rotated_address hstep.commits hr
      -- the session that was found has the address of the row, as text
      obtain ⟨found, row, rfl, hrow, hlater⟩ :=
        foundInv_of_reachable hs c session (mem_own.mp hmem)
      obtain ⟨row', hrow', hlater', _⟩ := hasNext_step hstep hrow
      have htext : (found.toDomain app.ports.pg).ip = row'.ip.map app.ports.pg.inetText := by
        rw [hlater'.ip, hlater.ip]
        rfl
      exact ⟨row', ip, hrow', haddress, htext ▸ hip⟩

/-! ### Chains of rotations -/

/-- The sessions that come from the session `root` by rotations of requests without a client
address. -/
inductive RotationChain (s : SysState) (root : Uuid) : Uuid → Prop where
  | root : RotationChain s root root
  | rotated {old new : Uuid} {c : Nat} {p : AuthRuntimePolicies} {cmd : RefreshCommand}
      {m : RequestMeta} {prog : Service Response} (h : RotationChain s root old)
      (hcall : s.calls c = some ⟨⟨p, .refresh cmd m⟩, prog⟩) (hip : m.ip = none)
      (hrotated : (c, .committed (.rotated old new)) ∈ s.trace) : RotationChain s root new

/-- Along a chain the address in the table stays the same. -/
theorem hasAddress_of_chain {app : App} {A : SysAdmission} {I : Db → Prop} {s : SysState}
    (hs : Reachable app.run A I s) (hpg : app.ports.pg.DocumentedInet) {text : Str} {v : Inet}
    (hread : app.ports.pg.inet text = some v) {root id : Uuid}
    (hroot : HasAddress s.store.sessions root (some v)) (hchain : RotationChain s root id) :
    HasAddress s.store.sessions id (some v) := by
  induction hchain with
  | root => exact hroot
  | @rotated old new c p cmd m prog _ hcall hip hrotated ih =>
    have hfact := addressFact_of_reachable hs c _ hcall _ (mem_own.mpr hrotated)
    obtain ⟨row, ip, hrow, haddress, harg⟩ := hfact.rotated cmd m old new rfl rfl
    rw [hip, ih.select hrow] at harg
    have hsame : some (some v) = some ip := (hpg.inetArg_inetText hread).symm.trans harg
    exact Option.some.inj hsame ▸ haddress

/-- A read prints the address of the row with its netmask length. -/
theorem toDomain_ip_ne {pg : Postgres} (hpg : pg.DocumentedInet) {v : Inet} {recorded : Str}
    (hhost : pg.host v = recorded) {row : SessionRow} (hrow : row.ip = some v) :
    (row.toDomain pg).ip = some (recorded ++ (lit "/" ++ lit (toString v.netmask))) ∧
      (row.toDomain pg).ip ≠ some recorded := by
  have hip : (row.toDomain pg).ip = some (recorded ++ (lit "/" ++ lit (toString v.netmask))) := by
    show row.ip.map pg.inetText = _
    rw [hrow, Option.map_some, hpg.inetText_eq, hhost, List.append_assoc]
  refine ⟨hip, fun heq => ?_⟩
  have hlength := congrArg List.length (Option.some.inj (hip.symm.trans heq))
  simp [lit] at hlength

/-- A row of the list is a row of the table. -/
theorem mem_of_mem_selectActive {now : Time} {userId : Uuid} {rows : List SessionRow}
    {row : SessionRow} (h : row ∈ sessionsSelectActiveByUserId now userId rows) : row ∈ rows := by
  unfold sessionsSelectActiveByUserId at h
  rw [List.mem_insertionSort] at h
  exact (List.mem_filter.mp h).1

/-- A session that was opened with an address text of the extractor, and everything that comes from
it by rotations without a client address, is read with another text: the netmask length is added. -/
theorem sessionAddress_never_recorded (app : App) (inet : InetLibrary)
    (hpg : app.ports.pg.DocumentedInet) (haddresses : app.ports.pg.ReadsAddresses inet)
    (A : SysAdmission) (I : Db → Prop) (s : SysState) (hs : Reachable app.run A I s)
    (extractor : ClientIpExtractor inet) (request : HttpRequest) (recorded : Str)
    (hextract : extractor.extract request = some recorded) (c : Nat) (p : AuthRuntimePolicies)
    (cmd : SignInCommand) (m : RequestMeta) (prog : Service Response) (hm : m.ip = some recorded)
    (hcall : s.calls c = some ⟨⟨p, .signIn cmd m⟩, prog⟩) (root id : Uuid)
    (hopened : (c, .committed (.signedIn root)) ∈ s.trace) (hchain : RotationChain s root id) :
    ∃ netmask, (netmask = lit "/32" ∨ netmask = lit "/128") ∧
      (∃ session, SessionRepository.findById app.ports.pg id s.store = some session ∧
        session.ip = some (recorded ++ netmask) ∧ session.ip ≠ some recorded) ∧
      ∀ i userId, ∀ session ∈ SessionRepository.listActiveByUserId app.ports.pg i userId s.store,
        session.id = id →
          session.ip = some (recorded ++ netmask) ∧ session.ip ≠ some recorded := by
  obtain ⟨v, hread, hhost, hmask⟩ :=
    haddresses.of_isParsed (ClientIpExtractor.isParsed_of_extract hextract)
  have hroot : HasAddress s.store.sessions root (some v) := by
    have hfact := addressFact_of_reachable hs c _ hcall _ (mem_own.mpr hopened)
    obtain ⟨ip, harg, haddress⟩ := hfact.opened cmd m root rfl rfl
    rw [hm, hpg.inetArg_some hread] at harg
    exact Option.some.inj harg ▸ haddress
  have haddress := hasAddress_of_chain hs hpg hread hroot hchain
  refine ⟨lit "/" ++ lit (toString v.netmask), ?_, ?_, ?_⟩
  · rcases hmask with h32 | h128
    · rw [h32]
      exact .inl (by decide)
    · rw [h128]
      exact .inr (by decide)
  · obtain ⟨row, hrow⟩ := haddress.row
    exact ⟨_, congrArg (Option.map _) hrow, toDomain_ip_ne hpg hhost (haddress.select hrow)⟩
  · intro i userId session hmem hid
    obtain ⟨row, hrow, rfl⟩ := List.mem_map.mp hmem
    exact toDomain_ip_ne hpg hhost (haddress.ip row (mem_of_mem_selectActive hrow) hid)

/-! ### The concrete server -/

/-- The laws of `inet` and `host` hold of the example. -/
theorem plainPostgres_documentedInet : plainPostgres.DocumentedInet where
  inet_nil := by decide
  inetText_eq _ := rfl
  inet_inetText text v h := by
    have h32 : lit "/" ++ lit (toString 32) = lit "/32" := by decide
    have h128 : lit "/" ++ lit (toString 128) = lit "/128" := by decide
    show plainInetOfText (plainHost v ++ lit "/" ++ lit (toString v.netmask)) = some v
    rcases plainInetOfText_cases h with ⟨address, rfl⟩ | ⟨address, rfl⟩
    · rw [plainHost_inetV4, List.append_assoc]
      exact plainInetOfText_textV4 address (.inr h32)
    · rw [plainHost_inetV6, List.append_assoc]
      exact plainInetOfText_textV6 address (.inr h128)

/-- The example reads what `inet_ntop` writes. -/
theorem plainPostgres_readsAddresses : plainPostgres.ReadsAddresses plainInet where
  v4 address := by
    have hread := plainInetOfText_textV4 address (.inl rfl)
    rw [List.append_nil] at hread
    exact ⟨inetV4 address, hread, plainHost_inetV4 address, rfl⟩
  v6 address := by
    have hread := plainInetOfText_textV6 address (.inl rfl)
    rw [List.append_nil] at hread
    exact ⟨inetV6 address, hread, plainHost_inetV6 address, rfl⟩

/-- An extractor without trusted proxies. -/
def directExtractor : ClientIpExtractor plainInet := ⟨[], [], rfl⟩

/-- A sign-in with the address of the peer. -/
def signInFrom (ip : Str) : Request :=
  ⟨hourSessions, .signIn { username := some "unit_user", password := "old_password" }
    { ip := some ip }⟩

/-- A sign-in from an address, then a rotation without a client address. -/
def signInAndRotate : List (Move Input Request) :=
  .start 0 (signInFrom "203.0.113.7") :: acts 0 (signInInputs ⟨1⟩ ⟨2⟩) ++
    .start 1 (refreshWith (unitToken ⟨1⟩ ⟨2⟩)) :: acts 1 (refreshInputs ⟨3⟩)

/-- The state that this schedule reaches. -/
structure SignedInAndRotated (s : SysState) : Prop where
  reachable : Reachable plainApp.run anyRun Seed s
  signIn : ∃ prog, s.calls 0 = some ⟨signInFrom "203.0.113.7", prog⟩
  opened : (0, .committed (.signedIn ⟨1⟩)) ∈ s.trace
  chain : RotationChain s ⟨1⟩ ⟨3⟩
  root : (SessionRepository.findById plainPostgres ⟨1⟩ s.store).map (·.ip) =
    some (some (lit "203.0.113.7/32"))
  current : (SessionRepository.findById plainPostgres ⟨3⟩ s.store).map (·.ip) =
    some (some (lit "203.0.113.7/32"))
  listed : (SessionRepository.listActiveByUserId plainPostgres {} unitUser.id s.store).map (·.ip) =
    [some (lit "203.0.113.7/32")]

/-- The run exists. -/
theorem exists_signedInAndRotated : ∃ s, SignedInAndRotated s := by
  have hseed : Reachable plainApp.run anyRun Seed (State.initial unitDb) := .init (by decide)
  have hrun : ∃ s, replay plainApp.run anyRun (State.initial unitDb) signInAndRotate = some s ∧
      (∃ prog, s.calls 1 = some ⟨refreshWith (unitToken ⟨1⟩ ⟨2⟩), prog⟩) ∧
      (1, .committed (.rotated ⟨1⟩ ⟨3⟩)) ∈ s.trace ∧
      (Reachable plainApp.run anyRun Seed s → RotationChain s ⟨1⟩ ⟨3⟩ →
        SignedInAndRotated s) :=
    ⟨_, rfl, ⟨_, rfl⟩, by decide +kernel, fun hreach hchain =>
      ⟨hreach, ⟨_, rfl⟩, by decide +kernel, hchain, by decide +kernel, by decide +kernel,
        by decide +kernel⟩⟩
  obtain ⟨s, hs, ⟨prog, hcall⟩, hrotated, hstate⟩ := hrun
  exact ⟨s, hstate (hseed.steps (steps_of_replay hs)) (.rotated .root hcall rfl hrotated)⟩

/-- The session that replaces the one of the sign-in. -/
theorem sessionAddress_never_recorded_rotated : ∃ s session,
    SignedInAndRotated s ∧
      SessionRepository.findById plainPostgres ⟨3⟩ s.store = some session ∧
      session.ip ≠ some (lit "203.0.113.7") := by
  obtain ⟨s, hs⟩ := exists_signedInAndRotated
  obtain ⟨prog, hcall⟩ := hs.signIn
  obtain ⟨_, _, ⟨session, hfound, _, hip⟩, _⟩ :=
    sessionAddress_never_recorded plainApp plainInet plainPostgres_documentedInet
      plainPostgres_readsAddresses anyRun Seed s hs.reachable directExtractor
      { remoteAddress := "203.0.113.7" } "203.0.113.7" (by decide +kernel) 0 _ _ _ prog rfl hcall
      ⟨1⟩ ⟨3⟩ hs.opened hs.chain
  exact ⟨s, session, hs, hfound, hip⟩

/-- The extractor records `203.0.113.7`, and the session has `203.0.113.7/32`. So has the session
that replaces it, and so has what `ListSessions` returns. -/
theorem sessionAddress_with_netmask : ∃ s,
    Reachable plainApp.run anyRun Seed s ∧
      directExtractor.extract { remoteAddress := "203.0.113.7" } = some (lit "203.0.113.7") ∧
      (∃ prog, s.calls 0 = some ⟨signInFrom "203.0.113.7", prog⟩) ∧
      (0, .committed (.signedIn ⟨1⟩)) ∈ s.trace ∧ RotationChain s ⟨1⟩ ⟨3⟩ ∧
      (SessionRepository.findById plainPostgres ⟨1⟩ s.store).map (·.ip) =
        some (some (lit "203.0.113.7/32")) ∧
      (SessionRepository.findById plainPostgres ⟨3⟩ s.store).map (·.ip) =
        some (some (lit "203.0.113.7/32")) ∧
      (SessionRepository.listActiveByUserId plainPostgres {} unitUser.id s.store).map (·.ip) =
        [some (lit "203.0.113.7/32")] ∧
      lit "203.0.113.7/32" ≠ lit "203.0.113.7" := by
  obtain ⟨s, hs⟩ := exists_signedInAndRotated
  exact ⟨s, hs.reachable, by decide +kernel, hs.signIn, hs.opened, hs.chain, hs.root, hs.current,
    hs.listed, by decide⟩

end SmirklyAuth
