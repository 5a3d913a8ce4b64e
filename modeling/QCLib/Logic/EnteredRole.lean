import QCLib.Logic.PlayerIndexes

/-!
# The role that a user plays

The server answers an `ENTER_GAME` from the player cache, and finds the player of every later
message through the index. To compare the two, a run carries along which role each user has last
been let in with (`Entered`, which no handler reads).

Two facts carry the argument. Whatever entry the index has leads to a cached player of that user
(`Routed`), in every run. And a user who has been let in has the entry of its role (`Entries`), in a
run whose steps meet `EntersOwn`.

The book beside the run says what the client was told, and the theorem compares it with what the
server does with the next message. `EntersOwn` is a condition on an `ENTER_GAME` that lets somebody
in: the role belongs to the user who sends it, and no other role of that user is in play. A logout
without an entry is one of the player `0`, and is excluded where that would take somebody else's
player away.
-/

open StepRun

namespace QCLib

namespace LogicServer

variable {σ : Type} {nosql : NoSqlDBCache σ} {s s' : LogicServer σ} {id : ObjectId}
  {user : UserId} {x : PlayerDataMsg} {e : Event}

/-! ### What users have been told -/

/-- For each user, the role that its last `ENTER_GAME` named, if that was acknowledged without an
error and the user has not logged out since. -/
abbrev Entered := UserId → Option ObjectId

/-- The last message that was sent tells the user that it has entered the game. -/
def acknowledged (s : LogicServer σ) (user : UserId) : Bool :=
  s.sent.getLast?.any fun packet ↦
    packet.user = user && packet.cmd = .enterGameAck &&
      match packet.body with
      | .ackEnterGame ack => ack.errorcode = 0
      | _ => false

/-- What is known after a message that has led to `s'`. -/
def Entered.note (entered : Entered) (s' : LogicServer σ) : Event → Entered
  | .enterGame user cmd =>
    Function.update entered user (if s'.acknowledged user then some cmd.playeronlyid else none)
  | .logout user => Function.update entered user none
  | .createRole _ _ | .clientReady _ | .move _ _ => entered

/-- Handle one message and take down what it has told its user. -/
def enteredStep (nosql : NoSqlDBCache σ) (x : LogicServer σ × Entered) (e : Event) :
    Option (LogicServer σ × Entered) :=
  (x.1.step nosql e).map fun s' ↦ (s', x.2.note s' e)

/-- **Users play the role they entered**: `GetObjectId`, which every handler asks, finds it, and it
belongs to the user. -/
def PlaysEntered (x : LogicServer σ × Entered) : Prop :=
  ∀ user id, x.2 user = some id → x.1.getObjectId user = id ∧ x.1.owners id = some user

/-- An `ENTER_GAME` for this role is acknowledged without an error. -/
def LetsIn (nosql : NoSqlDBCache σ) (s : LogicServer σ) (id : ObjectId) : Prop :=
  (id > 0 ∧ s.havePlayerData id) ∨ ∃ x ∈ s.storedPlayer nosql id, x.objectId ∉ s.playerDataCache

/-- An `ENTER_GAME` lets a user in with the role its entry is for, or, while it has none, with a
stored role of its own that is not in the cache. A logout without an entry, which is one of the
player `0`, does not hit somebody who has entered. -/
def EntersOwn (nosql : NoSqlDBCache σ) (x : LogicServer σ × Entered) : Event → Prop
  | .enterGame user cmd => x.1.LetsIn nosql cmd.playeronlyid →
      x.1.roles user = some cmd.playeronlyid ∨
        (x.1.roles user = none ∧ cmd.playeronlyid ∉ x.1.playerDataCache ∧
          ∃ p ∈ x.1.storedPlayer nosql cmd.playeronlyid,
            p.objectId = cmd.playeronlyid ∧ p.userId = user)
  | .logout user => x.1.roles user = none →
      ∀ other ∈ x.1.owners 0, other = user ∨ x.2 other = none
  | .createRole _ _ | .clientReady _ | .move _ _ => True

instance (nosql : NoSqlDBCache σ) (s : LogicServer σ) (id : ObjectId) :
    Decidable (s.LetsIn nosql id) :=
  decidable_of_iff ((id > 0 ∧ s.havePlayerData id) ∨
      (s.storedPlayer nosql id).any fun x ↦ x.objectId ∉ s.playerDataCache) (by
    simp only [LetsIn, Option.any_eq_true, Option.mem_def, decide_eq_true_eq])

instance decidableEntersOwn (nosql : NoSqlDBCache σ) (x : LogicServer σ × Entered) :
    ∀ e, Decidable (EntersOwn nosql x e)
  | .enterGame user cmd => decidable_of_iff (x.1.LetsIn nosql cmd.playeronlyid →
      x.1.roles user = some cmd.playeronlyid ∨
        (x.1.roles user = none ∧ cmd.playeronlyid ∉ x.1.playerDataCache ∧
          (x.1.storedPlayer nosql cmd.playeronlyid).any fun p ↦
            p.objectId = cmd.playeronlyid ∧ p.userId = user)) (by
      simp only [EntersOwn, Option.any_eq_true, Option.mem_def, decide_eq_true_eq])
  | .logout user => decidable_of_iff (x.1.roles user = none →
      (x.1.owners 0).all fun other ↦ other = user ∨ x.2 other = none) (by
      simp only [EntersOwn, Option.all_eq_true, Option.mem_def, decide_eq_true_eq])
  | .createRole _ _ | .clientReady _ | .move _ _ => inferInstanceAs (Decidable True)

/-! ### Entries lead to players -/

/-- An entry of the index leads to a cached player of its user. -/
def Routed (s : LogicServer σ) : Prop := ∀ user id, s.roles user = some id → s.owners id = some user

/-- Who has been let in has an entry for its role. -/
def Entries (x : LogicServer σ × Entered) : Prop :=
  ∀ user id, x.2 user = some id → x.1.roles user = some id

/-- A user without a role is treated as one with the role 0. -/
theorem getObjectId_eq (s : LogicServer σ) (user : UserId) :
    s.getObjectId user = (s.roles user).getD 0 := rfl

theorem owners_ne_none_iff : s.owners id ≠ none ↔ id ∈ s.playerDataCache := by
  rw [owners, Ne, Option.map_eq_none_iff, baseData_eq_none_iff, Decidable.not_not]

theorem Routed.congr (h : s.Routed) (hsame : SamePlayers s s') : s'.Routed := by
  rw [Routed, hsame.roles, hsame.owners]
  exact h

/-- A new player leaves the entries that there are. -/
theorem roles_addPlayerData {r : ObjectId} (h : s.roles user = some r) (x : PlayerDataMsg) :
    (s.addPlayerData x).1.roles user = some r := by
  rcases Decidable.em (x.objectId ∈ s.playerDataCache) with hx | hx
  · rw [addPlayerData_of_mem hx, h]
  · rw [roles_of_insertIfNew (addPlayerData_of_notMem hx).2.2]
    split_ifs with hnone
    · have hne : user ≠ x.userId := by
        rintro rfl
        exact Option.some_ne_none r (h.symm.trans hnone)
      rw [Function.update_of_ne hne, h]
    · exact h

/-- A record that was put into the cache brings its own owner. -/
theorem Routed.addPlayerData (h : s.Routed) (x : PlayerDataMsg) : (s.addPlayerData x).1.Routed := by
  rcases Decidable.em (x.objectId ∈ s.playerDataCache) with hx | hx
  · rwa [addPlayerData_of_mem hx]
  · obtain ⟨-, hbase, hhash⟩ := addPlayerData_of_notMem hx
    have hold : ∀ user id, s.roles user = some id →
        Function.update s.owners x.objectId (some x.userId) id = some user := by
      intro user id hrole
      have howner := h user id hrole
      have hne : id ≠ x.objectId := by
        rintro rfl
        exact hx (owners_ne_none_iff.1 (by rw [howner]; exact Option.some_ne_none user))
      rw [Function.update_of_ne hne, howner]
    rw [Routed, owners_of_update hbase, roles_of_insertIfNew hhash]
    intro user id hrole
    split_ifs at hrole with hnone
    · rcases eq_or_ne user x.userId with rfl | hne
      · rw [Function.update_self, Option.some.injEq] at hrole
        rw [← hrole, Function.update_self]
        rfl
      · rw [Function.update_of_ne hne] at hrole
        exact hold user id hrole
    · exact hold user id hrole

/-- What a logout leaves of the indexes: the player that was found goes, and with it the entry of
the user it belongs to. -/
theorem loginOut_cases (hs : s.loginOut nosql user = some s') :
    (s.owners (s.getObjectId user) = none ∧ s'.owners = s.owners ∧ s'.roles = s.roles) ∨
      ∃ other, s.owners (s.getObjectId user) = some other ∧
        s'.owners = Function.update s.owners (s.getObjectId user) none ∧
          s'.roles = Function.update s.roles other none := by
  have hspec := samePlayers_loginOut hs
  cases hbase : s.baseData (s.getObjectId user) with
  | none =>
    rw [hbase] at hspec
    exact Or.inl ⟨by rw [owners, hbase]; rfl, hspec.owners, hspec.roles⟩
  | some p =>
    rw [hbase] at hspec
    exact Or.inr ⟨p.userId, by rw [owners, hbase]; rfl, owners_of_update hspec.1,
      roles_of_erase hspec.2⟩

/-- A logout takes the player away together with the cached record. -/
theorem Routed.loginOut (h : s.Routed) (hs : s.loginOut nosql user = some s') : s'.Routed := by
  rcases loginOut_cases hs with ⟨-, howners, hroles⟩ | ⟨other, hother, howners, hroles⟩
  · rwa [Routed, howners, hroles]
  · rw [Routed, howners, hroles]
    intro u id hrole
    rcases eq_or_ne u other with rfl | hne
    · rw [Function.update_self] at hrole
      exact absurd hrole.symm (Option.some_ne_none id)
    · rw [Function.update_of_ne hne] at hrole
      have howner := h u id hrole
      have hid : id ≠ s.getObjectId user := by
        rintro rfl
        exact hne (Option.some.inj (howner.symm.trans hother))
      rw [Function.update_of_ne hid, howner]

/-- The two cases of an `ENTER_GAME`: a player is read from the store and put into the cache, or
nothing about players changes. -/
theorem enterGame_cases (nosql : NoSqlDBCache σ) (s : LogicServer σ) (user : UserId)
    (cmd : ReqEnterGame) :
    (∃ x ∈ s.storedPlayer nosql cmd.playeronlyid, x.objectId ∉ s.playerDataCache ∧
      ¬ (cmd.playeronlyid > 0 ∧ s.havePlayerData cmd.playeronlyid) ∧
        SamePlayers (s.addPlayerData x).1 (s.enterGame nosql user cmd)) ∨
      SamePlayers s (s.enterGame nosql user cmd) ∧ (s.LetsIn nosql cmd.playeronlyid →
        cmd.playeronlyid > 0 ∧ s.havePlayerData cmd.playeronlyid) := by
  have hsame := samePlayers_enterGame nosql s user cmd
  rcases Decidable.em (cmd.playeronlyid > 0 ∧ s.havePlayerData cmd.playeronlyid) with hc | hc
  · rw [if_pos hc] at hsame
    exact Or.inr ⟨hsame, fun _ ↦ hc⟩
  · rw [if_neg hc] at hsame
    cases hstored : s.storedPlayer nosql cmd.playeronlyid with
    | none =>
      rw [loadPlayerDataFromDb_of_none hstored] at hsame
      refine Or.inr ⟨hsame, fun hin ↦ ?_⟩
      rcases hin with h | ⟨x, hx, -⟩
      · exact h
      · rw [hstored] at hx
        exact absurd hx (by simp)
    | some x =>
      rw [loadPlayerDataFromDb_of_some hstored] at hsame
      rcases Decidable.em (x.objectId ∈ s.playerDataCache) with hmem | hmem
      · rw [addPlayerData_of_mem hmem] at hsame
        refine Or.inr ⟨hsame, fun hin ↦ ?_⟩
        rcases hin with h | ⟨x', hx', hnot⟩
        · exact h
        · obtain rfl := Option.some.inj (hstored.symm.trans hx')
          exact absurd hmem hnot
      · exact Or.inl ⟨x, rfl, hmem, hc, hsame⟩

/-- The client hears that it has entered exactly when the server lets it in. -/
theorem acknowledged_enterGame_iff (cmd : ReqEnterGame) :
    (s.enterGame nosql user cmd).acknowledged user = true ↔ s.LetsIn nosql cmd.playeronlyid := by
  have hsent (s : LogicServer σ) (ack : AckEnterGame) :
      (s.sendMsgToPlayer user .enterGameAck (.ackEnterGame ack)).acknowledged user =
        decide (ack.errorcode = 0) := by
    simp [acknowledged, sendMsgToPlayer]
  simp only [enterGame]
  split_ifs with hc hload
  · exact iff_of_true (by rw [hsent]; rfl) (Or.inl hc)
  · refine iff_of_true (by rw [hsent]; rfl) (Or.inr ?_)
    cases hstored : s.storedPlayer nosql cmd.playeronlyid with
    | none =>
      rw [loadPlayerDataFromDb_of_none hstored] at hload
      exact absurd hload Bool.false_ne_true
    | some x =>
      rw [loadPlayerDataFromDb_of_some hstored] at hload
      refine ⟨x, rfl, fun hmem ↦ ?_⟩
      rw [addPlayerData_of_mem hmem] at hload
      exact Bool.false_ne_true hload
  · refine iff_of_false (by rw [hsent]; decide) fun hin ↦ ?_
    rcases hin with h | ⟨x, hx, hmem⟩
    · exact hc h
    · rw [loadPlayerDataFromDb_of_some hx] at hload
      exact hload (addPlayerData_of_notMem hmem).1

/-! ### One message -/

theorem Entries.of_roles {entered : Entered} (h : Entries (s, entered))
    (hroles : s'.roles = s.roles) : Entries (s', entered) := by
  rw [Entries, hroles]
  exact h

/-- What an `ENTER_GAME` that brings in a player does to the entry of its user. -/
theorem roles_addPlayerData_eq_some_iff {r : ObjectId} (hx : x.objectId ∉ s.playerDataCache) :
    (s.addPlayerData x).1.roles user = some r ↔
      s.roles user = some r ∨ (s.roles user = none ∧ x.objectId = r ∧ x.userId = user) := by
  rw [roles_of_insertIfNew (addPlayerData_of_notMem hx).2.2]
  split_ifs with hnone
  · rcases eq_or_ne user x.userId with rfl | hne
    · rw [Function.update_self, hnone]
      simp
    · rw [Function.update_of_ne hne]
      simp [hne.symm]
  · refine ⟨Or.inl, ?_⟩
    rintro (h | ⟨h, -, rfl⟩)
    · exact h
    · exact absurd h hnone

/-- Entering keeps the routes, whether the user is let in or not. -/
theorem Routed.enterGame (h : s.Routed) (cmd : ReqEnterGame) :
    (s.enterGame nosql user cmd).Routed := by
  rcases enterGame_cases nosql s user cmd with ⟨x, -, -, -, hsame⟩ | ⟨hsame, -⟩
  · exact (h.addPlayerData x).congr hsame
  · exact h.congr hsame

/-- What is known after an `ENTER_GAME` is the role it let the user in with, or was known before. -/
theorem Entered.note_enterGame {entered : Entered} {cmd : ReqEnterGame} {u : UserId} {r : ObjectId}
    (hu : entered.note (s.enterGame nosql user cmd) (.enterGame user cmd) u = some r) :
    u = user ∧ r = cmd.playeronlyid ∧ s.LetsIn nosql cmd.playeronlyid ∨ entered u = some r := by
  rw [Entered.note] at hu
  rcases eq_or_ne u user with rfl | hne
  · rw [Function.update_self] at hu
    split_ifs at hu with hack
    exact Or.inl ⟨rfl, (Option.some.inj hu).symm, (acknowledged_enterGame_iff cmd).1 hack⟩
  · rw [Function.update_of_ne hne] at hu
    exact Or.inr hu

/-- **Entering with one's own role keeps the entries**, and this is where the condition on the step
is used: a user who enters with somebody else's role is played under that role. -/
theorem Entries.enterGame {entered : Entered} {cmd : ReqEnterGame} (h : Entries (s, entered))
    (hok : EntersOwn nosql (s, entered) (.enterGame user cmd)) :
    Entries (s.enterGame nosql user cmd,
      entered.note (s.enterGame nosql user cmd) (.enterGame user cmd)) := by
  intro u r hu
  show (s.enterGame nosql user cmd).roles u = some r
  rcases enterGame_cases nosql s user cmd with ⟨x, hx, hmem, -, hsame⟩ | ⟨hsame, hcached⟩
  · rw [hsame.roles]
    rcases Entered.note_enterGame hu with ⟨rfl, rfl, hin⟩ | hu
    · rw [roles_addPlayerData_eq_some_iff hmem]
      rcases hok hin with hrole | ⟨hnone, -, p, hp, hid, huser⟩
      · exact Or.inl hrole
      · obtain rfl := Option.some.inj (hx.symm.trans hp)
        exact Or.inr ⟨hnone, hid, huser⟩
    · exact roles_addPlayerData (h u r hu) x
  · rw [hsame.roles]
    rcases Entered.note_enterGame hu with ⟨rfl, rfl, hin⟩ | hu
    · rcases hok hin with hrole | ⟨-, hnot, -⟩
      · exact hrole
      · exact absurd (of_decide_eq_true (hcached hin).2) hnot
    · exact h u r hu

/-- A logout takes back the entry of the user who leaves. -/
theorem Entries.loginOut {entered : Entered} (hrouted : s.Routed) (h : Entries (s, entered))
    (hok : EntersOwn nosql (s, entered) (.logout user)) (hs : s.loginOut nosql user = some s') :
    Entries (s', entered.note s' (.logout user)) := by
  intro u r hu
  replace hu : Function.update entered user none u = some r := hu
  show s'.roles u = some r
  rcases eq_or_ne u user with rfl | hne
  · rw [Function.update_self] at hu
    exact absurd hu.symm (Option.some_ne_none r)
  · rw [Function.update_of_ne hne] at hu
    rcases loginOut_cases hs with ⟨-, -, hroles⟩ | ⟨other, hother, -, hroles⟩
    · rw [hroles]
      exact h u r hu
    · have hne' : u ≠ other := by
        rintro rfl
        -- The player that goes is the one of the entry, or the player `0`.
        cases hrole : s.roles user with
        | some a =>
          have howner := hrouted user a hrole
          rw [getObjectId_eq, hrole] at hother
          exact hne (Option.some.inj (hother.symm.trans howner))
        | none =>
          rw [getObjectId_eq, hrole] at hother
          rcases hok hrole u hother with rfl | hnone
          · exact hne rfl
          · exact Option.some_ne_none r (hu.symm.trans hnone)
      rw [hroles, Function.update_of_ne hne']
      exact h u r hu

/-- **One message keeps the invariants**, if it lets nobody in with another role. -/
theorem Entries.step {entered : Entered} (hrouted : s.Routed) (h : Entries (s, entered))
    (hok : EntersOwn nosql (s, entered) e) (hs : s.step nosql e = some s') :
    s'.Routed ∧ Entries (s', entered.note s' e) := by
  cases e with
  | createRole user cmd =>
    obtain rfl := Option.some.inj hs
    have hsame := samePlayers_createPlayer nosql s user cmd
    refine ⟨(hrouted.addPlayerData _).congr hsame, ?_⟩
    refine Entries.of_roles (fun u r hu ↦ ?_) hsame.roles
    exact roles_addPlayerData (h u r hu) _
  | enterGame user cmd =>
    obtain rfl := Option.some.inj hs
    exact ⟨hrouted.enterGame cmd, h.enterGame hok⟩
  | clientReady user =>
    have hsame := samePlayers_addUserToMap hs
    exact ⟨hrouted.congr hsame, h.of_roles hsame.roles⟩
  | move user cmd =>
    have hsame := samePlayers_playerMove hs
    exact ⟨hrouted.congr hsame, h.of_roles hsame.roles⟩
  | logout user => exact ⟨hrouted.loginOut hs, h.loginOut hrouted hok hs⟩

/-- While the entries hold, a user plays the role that was entered. -/
theorem Entries.playsEntered {entered : Entered} (hrouted : s.Routed) (h : Entries (s, entered)) :
    PlaysEntered (s, entered) := by
  intro user id hid
  have hrole := h user id hid
  exact ⟨by rw [getObjectId_eq, hrole]; rfl, hrouted user id hrole⟩

/-- The message names a role other than `0`. -/
def NamesRole : Event → Prop
  | .enterGame _ cmd => cmd.playeronlyid ≠ 0
  | .createRole _ _ | .clientReady _ | .move _ _ | .logout _ => True

/-- Nobody has entered with the role 0, as long as no request names it. -/
theorem Entered.note_ne_zero {entered : Entered} (hne : ∀ u, entered u ≠ some 0)
    (hname : NamesRole e) (s' : LogicServer σ) (u : UserId) : entered.note s' e u ≠ some 0 := by
  cases e with
  | enterGame user cmd =>
    rw [Entered.note]
    rcases eq_or_ne u user with rfl | hu
    · rw [Function.update_self]
      split_ifs
      · exact fun h ↦ hname (Option.some.inj h)
      · exact (Option.some_ne_none _).symm
    · rw [Function.update_of_ne hu]
      exact hne u
  | logout user =>
    rw [Entered.note]
    rcases eq_or_ne u user with rfl | hu
    · rw [Function.update_self]
      exact (Option.some_ne_none _).symm
    · rw [Function.update_of_ne hu]
      exact hne u
  | createRole _ _ | clientReady _ | move _ _ => exact hne u

/-- Conversely, a message that lets somebody in with another role is the end of it. -/
theorem EntersOwn.of_playsEntered {entered : Entered}
    (hne : ∀ u, entered u ≠ some 0) (hnames : NamesRole e) (hs : s.step nosql e = some s')
    (hplays : PlaysEntered (s', entered.note s' e)) : EntersOwn nosql (s, entered) e := by
  cases e with
  | createRole user cmd => trivial
  | enterGame user cmd =>
    obtain rfl := Option.some.inj hs
    intro hin
    have hnoted : entered.note (s.enterGame nosql user cmd) (.enterGame user cmd) user =
        some cmd.playeronlyid := by
      rw [Entered.note, Function.update_self, if_pos ((acknowledged_enterGame_iff cmd).2 hin)]
    have hget : (s.enterGame nosql user cmd).getObjectId user = cmd.playeronlyid :=
      (hplays user _ hnoted).1
    have hrole : (s.enterGame nosql user cmd).roles user = some cmd.playeronlyid := by
      rw [getObjectId_eq] at hget
      cases hr : (s.enterGame nosql user cmd).roles user with
      | none =>
        rw [hr] at hget
        exact absurd hget.symm hnames
      | some r =>
        rw [hr] at hget
        exact congrArg some hget
    rcases enterGame_cases nosql s user cmd with ⟨x, hx, hmem, -, hsame⟩ | ⟨hsame, -⟩
    · rw [hsame.roles, roles_addPlayerData_eq_some_iff hmem] at hrole
      rcases hrole with hrole | ⟨hnone, hid, huser⟩
      · exact Or.inl hrole
      · exact Or.inr ⟨hnone, hid ▸ hmem, x, hx, hid, huser⟩
    · rw [hsame.roles] at hrole
      exact Or.inl hrole
  | clientReady user => trivial
  | move user cmd => trivial
  | logout user =>
    intro hnone other hother
    by_contra hcon
    obtain ⟨hneuser, hentered⟩ := not_or.1 hcon
    obtain ⟨r, hr⟩ : ∃ r, entered other = some r := Option.ne_none_iff_exists'.1 hentered
    have hnoted : entered.note s' (.logout user) other = some r := by
      rw [Entered.note, Function.update_of_ne hneuser, hr]
    have hget : s'.getObjectId other = r := (hplays other r hnoted).1
    rcases loginOut_cases hs with ⟨hgone, -, -⟩ | ⟨other', hother', -, hroles⟩
    · rw [getObjectId_eq, hnone] at hgone
      exact Option.some_ne_none other (hother.symm.trans hgone)
    · rw [getObjectId_eq, hnone] at hother'
      obtain rfl := Option.some.inj (hother.symm.trans hother')
      rw [getObjectId_eq, hroles, Function.update_self] at hget
      exact hne other (by rw [hr, ← hget]; rfl)

/-! ### Runs -/

/-- Nobody has been told anything yet. -/
def Entered.nobody : Entered := fun _ ↦ none

/-- **A user plays the role it entered.** Along any run, with anything in the store: if every
message lets users in with the role their entry is for, or with a stored role of their own while
they have no entry, then in every state a user who has been let in plays that role. In a run that is
defined and where nobody names the role `0`, no weaker condition would do. -/
theorem playsEntered_of_entersOwn (nosql : NoSqlDBCache σ) (map : GameMap) (gCount : UInt64)
    (db : σ) (l : List Event) :
    (Guarded (enteredStep nosql) (EntersOwn nosql) (start map gCount db, .nobody) l →
      Throughout (enteredStep nosql) PlaysEntered (start map gCount db, .nobody) l) ∧
    ((∀ e ∈ l, NamesRole e) →
      (∃ x, run (enteredStep nosql) (start map gCount db, .nobody) l = some x) →
      Throughout (enteredStep nosql) PlaysEntered (start map gCount db, .nobody) l →
        Guarded (enteredStep nosql) (EntersOwn nosql) (start map gCount db, .nobody) l) := by
  have hrouted : (start map gCount db).Routed := fun user id h ↦ by simp [start, roles] at h
  have hentries : Entries (start map gCount db, Entered.nobody) :=
    fun user id h ↦ absurd h.symm (Option.some_ne_none id)
  have hstep : ∀ (x : LogicServer σ × Entered) (e : Event) (x' : LogicServer σ × Entered),
      x.1.Routed ∧ Entries x → EntersOwn nosql x e → enteredStep nosql x e = some x' →
        x'.1.Routed ∧ Entries x' := by
    rintro ⟨s, entered⟩ e x' ⟨hr, he⟩ hok hs
    obtain ⟨s', hs', rfl⟩ := Option.map_eq_some_iff.1 hs
    exact he.step hr hok hs'
  refine ⟨fun hok ↦ throughout_of_guarded (fun x h ↦ h.2.playsEntered h.1) hstep
    ⟨hrouted, hentries⟩ hok, ?_⟩
  rintro hnames ⟨x, hrun⟩ h
  -- Where nobody has entered with the role `0`, an entry is what `GetObjectId` returns.
  have hside : Guarded (enteredStep nosql) (fun x e ↦ NamesRole e ∧ (enteredStep nosql x e).isSome)
      (start map gCount db, .nobody) l := (guarded_of_forall hnames).and (guarded_isSome hrun)
  have hsame : ∀ (x : LogicServer σ × Entered) (e : Event),
      (x.1.Routed ∧ Entries x) ∧ (∀ u, x.2 u ≠ some 0) →
        NamesRole e ∧ (enteredStep nosql x e).isSome →
          (EntersOwn nosql x e ↔ Into (enteredStep nosql) PlaysEntered x e) := by
    rintro ⟨s, entered⟩ e ⟨⟨hr, he⟩, hne⟩ ⟨hname, hsome⟩
    obtain ⟨x', hx'⟩ := Option.isSome_iff_exists.1 hsome
    rw [into_of_eq hx']
    obtain ⟨s', hs', rfl⟩ := Option.map_eq_some_iff.1 hx'
    constructor
    · intro hok
      obtain ⟨hr', he'⟩ := he.step hr hok hs'
      exact he'.playsEntered hr'
    · exact EntersOwn.of_playsEntered hne hname hs'
  refine (guarded_iff hsame (fun x e x' hinv hname hok hs ↦ ⟨hstep x e x' hinv.1 hok hs, ?_⟩)
    ⟨⟨hrouted, hentries⟩, fun u ↦ (Option.some_ne_none 0).symm⟩ hside).2 h.2
  obtain ⟨s', -, rfl⟩ := Option.map_eq_some_iff.1 hs
  exact Entered.note_ne_zero hinv.2 hname.1 s'

/-- A user enters with the role that it has created, and after a logout with the one that is stored.
-/
theorem playsEntered_comesBack : Throughout (enteredStep .inMemory) PlaysEntered
    (sampleServer, .nobody)
      [.createRole 7 {}, .enterGame 7 ⟨1⟩, .clientReady 7, .logout 7, .enterGame 7 ⟨1⟩] :=
  (playsEntered_of_entersOwn .inMemory _ 0 ([], []) _).1 (by decide +kernel)

/-- Somebody enters the game with another user's role, which is in the cache. -/
theorem entered_role_of_another :
    ∃ x, run (enteredStep .inMemory) (sampleServer, .nobody) [.createRole 7 {}, .enterGame 8 ⟨1⟩] =
      some x ∧ ¬ PlaysEntered x := by
  refine ⟨_, rfl, fun h ↦ ?_⟩
  exact absurd (h 8 1 (by decide +kernel)).1 (by decide +kernel)

end LogicServer

end QCLib
