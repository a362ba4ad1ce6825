import AlphaPing.Access.Invitations

/-!
# The handlers of invitations in every run

What a handler has read of an invitation or a user is still so when its batch is performed; what
may have changed, the batch looks at itself. So the invariant of the invitations holds in every
state of every run, and the steps of an acceptance that reports an error have changed nothing.
-/

namespace AlphaPing.Access.Acceptances

open Library.Runs Library.Tables Library.Workflows Protocol Memberships MemberHandlers Invitations
open Library.Batches hiding perform

open Monitoring.Control (WorkspaceRole Actor)
open Monitoring.ServiceConfig (HttpError)
open Monitoring.Handlers (isSpace trim)

variable {platform : Platform}

/-! ## Addresses -/

theorem trim_of_no_space {text : String} (h : text.toList.any isSpace = false) :
    trim text = text := by
  have hkeep {characters : List Char} (h : ∀ character ∈ characters, isSpace character = false) :
      characters.dropWhile isSpace = characters := by
    cases characters with
    | nil => rfl
    | cons first rest =>
      rw [List.dropWhile_cons_of_neg]
      rw [h first List.mem_cons_self]
      exact Bool.false_ne_true
  have hnone : ∀ character ∈ text.toList, isSpace character = false := by
    intro character hmem
    exact Bool.eq_false_iff.mpr fun hspace ↦
      Bool.false_ne_true (h.symm.trans (List.any_eq_true.mpr ⟨character, hmem, hspace⟩))
  have hreverse : ∀ character ∈ text.toList.reverse, isSpace character = false :=
    fun character hmem ↦ hnone character (List.mem_reverse.mp hmem)
  rw [trim, hkeep hnone, hkeep hreverse, List.reverse_reverse, String.ofList_toList]

theorem normalizeEmail_idem {email normalized : String}
    (h : normalizeEmail platform email = some normalized) :
    normalizeEmail platform normalized = some normalized := by
  unfold normalizeEmail at h ⊢
  dsimp only at h ⊢
  split at h
  · cases h
  · next hshape =>
    obtain rfl := Option.some.inj h
    have hspace : (platform.toLowerCase (trim email)).toList.any isSpace = false := by
      simp only [Bool.or_eq_true, not_or, Bool.not_eq_true, Bool.not_eq_false'] at hshape
      have hemail := hshape.2
      simp only [emailShape, Bool.and_eq_true, Bool.not_eq_true'] at hemail
      exact hemail.1.1.1
    rw [trim_of_no_space hspace, platform.toLowerCase_idem, if_neg hshape]

/-! ## Handlers -/

section Sound

variable {db : AccessDb}

/-- What a workflow does from this store on is sound. -/
abbrev Sound (platform : Platform) (rest : Flow) (db : AccessDb) : Prop :=
  rest.Sound perform (Inv platform) Rely (Good platform) db

theorem sound_finish (changed : ℕ) (conflict : String) (answer : Answer)
    (reply : Option (List ℕ)) (db : AccessDb) :
    Sound platform (finish changed conflict answer reply) db := by
  unfold finish
  split
  · trivial
  · split <;> trivial

theorem sound_requireWorkspaceAdmin {actor : Actor} {next : String → Flow}
    (h : ∀ workspaceId later, Sound platform (next workspaceId) later) :
    Sound platform (requireWorkspaceAdmin actor next) db := by
  intro later _ _
  dsimp only
  split
  · exact h _ later
  · trivial

theorem mem_of_invitationRecord {digest : Bytes} {invitation : InvitationRecord}
    (h : invitationRecord db digest = some invitation) :
    ∃ row ∈ db.invitations, row.id = invitation.id ∧ row.email = invitation.email := by
  obtain ⟨row, hrow, hrecord⟩ := List.exists_of_findSome?_eq_some h
  obtain ⟨workspace, -, rfl⟩ := Option.map_eq_some_iff.mp hrecord
  exact ⟨row, (List.mem_filter.mp hrow).1, rfl, rfl⟩

theorem sound_requireInvitation {token : String} {now : ℤ} {next : InvitationRecord → Flow}
    (h : ∀ invitation later, Rely db later →
      (∃ row ∈ later.invitations, row.id = invitation.id ∧ row.email = invitation.email) →
      Sound platform (next invitation) later) :
    Sound platform (requireInvitation platform token now next) db := by
  unfold requireInvitation
  split
  · trivial
  · intro later hlater _
    dsimp only
    split
    · trivial
    · next invitation hrecord =>
      split
      · trivial
      · exact h invitation later hlater (mem_of_invitationRecord hrecord)

theorem sound_acceptInvitationForUser (token userId auditId : String) (db : AccessDb) :
    Sound platform (acceptInvitationForUser platform token userId auditId) db := by
  intro first _ _
  dsimp only
  split
  · trivial
  · next user now hread =>
    obtain ⟨huser, rfl⟩ := Prod.mk.inj hread
    apply sound_requireInvitation
    intro invitation second hsecond hrow
    split
    · trivial
    · next email hemail =>
      split
      · trivial
      · next hsame =>
        intro third hthird _
        refine ⟨⟨(hsecond.trans hthird).clock, ?_⟩, sound_finish _ _ _ _ _⟩
        obtain ⟨row, hmem, hid, haddress⟩ := hthird.invitation hrow
        have hkept := (hsecond.trans hthird).users user (List.mem_of_find?_eq_some huser)
        refine ⟨row, hmem, hid, user, hkept, rfl, ?_⟩
        rw [hemail, haddress, Decidable.not_not.mp hsame]

theorem sound_registerFromWorkspaceInvitation (token name password : String) (fresh : Fresh)
    (db : AccessDb) :
    Sound platform (registerFromWorkspaceInvitation platform token name password fresh) db := by
  unfold registerFromWorkspaceInvitation
  intro first _ _
  apply sound_requireInvitation
  intro invitation second hsecond hrow
  split
  · exact True.intro
  · split
    · exact True.intro
    · split
      · exact True.intro
      · intro third hthird _
        refine ⟨⟨(hsecond.trans hthird).clock, ?_⟩, sound_finish _ _ _ _ _⟩
        obtain ⟨row, hmem, hid, haddress⟩ := hthird.invitation hrow
        exact ⟨row, hmem, hid, haddress.symm⟩

theorem sound_createWorkspaceInvitation (actor : Actor) (email : String) (role : WorkspaceRole)
    (fresh : Fresh) (db : AccessDb) :
    Sound platform (createWorkspaceInvitation platform actor email role fresh) db := by
  apply sound_requireWorkspaceAdmin
  intro workspaceId first
  dsimp only
  split
  · trivial
  · next normalized hnormalized =>
    intro second _ _
    dsimp only
    split_ifs
    · trivial
    · split
      · trivial
      · intro third _ _ last _ _
        exact ⟨⟨rfl, normalizeEmail_idem hnormalized⟩, sound_finish _ _ _ _ _⟩

theorem sound_revokeWorkspaceInvitation (actor : Actor) (invitationId auditId : String)
    (db : AccessDb) :
    Sound platform (revokeWorkspaceInvitation actor invitationId auditId) db := by
  apply sound_requireWorkspaceAdmin
  intro workspaceId first second _ _
  dsimp only
  split
  · trivial
  · exact fun _ _ _ _ _ _ ↦ ⟨True.intro, sound_finish _ _ _ _ _⟩

theorem sound_updateWorkspaceMembership (actor : Actor) (input : MembershipInput)
    (auditId : String) (db : AccessDb) :
    Sound platform (updateWorkspaceMembership actor input auditId) db := by
  have hsend (workspaceId : String) (member : WorkspaceRole × Conditions.MembershipStatus)
      (removes : Bool) (db : AccessDb) :
      Sound platform (sendUpdate workspaceId actor.userId auditId input member removes) db :=
    fun _ _ _ _ _ _ ↦ ⟨True.intro, sound_finish _ _ _ _ _⟩
  unfold updateWorkspaceMembership
  split
  · trivial
  · apply sound_requireWorkspaceAdmin
    intro workspaceId first second _ _
    dsimp only
    split
    · trivial
    · split
      · trivial
      · split
        · intro third _ _
          dsimp only
          split
          · exact hsend _ _ _ _
          · trivial
        · exact hsend _ _ _ _

theorem sound_createWorkspace (actorUserId : String) (input : CreateWorkspaceInput)
    (fresh : Fresh) (db : AccessDb) :
    Sound platform (createWorkspace actorUserId input fresh) db := by
  unfold createWorkspace
  split
  · trivial
  · intro first _ _
    dsimp only
    split
    · trivial
    · intro second _ _
      dsimp only
      split
      · trivial
      · intro third _ _
        refine ⟨trivial, fun fourth _ _ last _ _ ↦ ⟨trivial, ?_⟩⟩
        dsimp only
        split
        · trivial
        · intro after _ _
          dsimp only
          split <;> trivial

theorem sound_sendOnly (batch : Batch) (h : ∀ db, Good platform db batch) (db : AccessDb) :
    Sound platform (sendOnly batch) db := by
  intro later _ _
  refine ⟨h later, ?_⟩
  cases (perform batch later).2 <;> exact True.intro

theorem sound_program (request : Request) (db : AccessDb) :
    Sound platform (program platform request) db := by
  cases request with
  | createWorkspace actorUserId input fresh => exact sound_createWorkspace actorUserId input fresh db
  | updateWorkspaceMembership actor input auditId =>
    exact sound_updateWorkspaceMembership actor input auditId db
  | createWorkspaceInvitation actor email role fresh =>
    exact sound_createWorkspaceInvitation actor email role fresh db
  | revokeWorkspaceInvitation actor invitationId auditId =>
    exact sound_revokeWorkspaceInvitation actor invitationId auditId db
  | acceptInvitationForUser token userId auditId =>
    exact sound_acceptInvitationForUser token userId auditId db
  | registerFromWorkspaceInvitation token name password fresh =>
    exact sound_registerFromWorkspaceInvitation token name password fresh db
  | deleteMemberships keys => exact sound_sendOnly (.deleteMemberships keys) (fun _ ↦ True.intro) db
  | addUser user => exact sound_sendOnly (.addUser user) (fun _ ↦ True.intro) db
  | markWorkspace workspaceId deletedAt => exact sound_sendOnly (.markWorkspace workspaceId deletedAt) (fun _ ↦ True.intro) db
  | pass milliseconds => exact sound_sendOnly (.pass milliseconds) (fun _ ↦ True.intro) db

end Sound

theorem along_orderly (platform : Platform) (actions : List (Action Request)) :
    Visits (step (program platform) perform) (fun system ↦ Inv platform system.store)
        (start emptyDb) actions ∧
      Along (step (program platform) perform) (Performs (Orderly platform))
        (start emptyDb) actions := by
  have hprogram : ∀ request db, Inv platform db → Sound platform (program platform request) db :=
    fun request db _ ↦ sound_program request db
  have hstep : ∀ (system : System Request AccessDb Batch (Option (List ℕ))
      (Except HttpError Answer)) (action : Action Request), True → True := fun _ _ h ↦ h
  have hok : Along (step (program platform) perform) (Performs fun _ _ ↦ True)
      (start emptyDb) actions :=
    along_of_visits (fun _ _ _ _ _ ↦ trivial) (visits_invariant hstep trivial actions)
  constructor
  · exact visits_inv (program platform) (guarantee platform) hprogram inv_emptyDb hok
  · refine along_mono (fun system action hgood batch hbatch ↦ ?_)
      (along_good (program platform) (guarantee platform) hprogram inv_emptyDb hok)
    obtain ⟨hinv, hgood⟩ := hgood batch hbatch
    exact orderly_of_good hinv hgood

/-! ## Errors -/

section Errors

/-- The requests whose error is looked at. -/
def accepts : Request → Bool
  | .acceptInvitationForUser _ _ _ => true
  | .registerFromWorkspaceInvitation _ _ _ _ => true
  | _ => false

def failed (request : Request) : Except HttpError Answer → Bool
  | .error _ => accepts request
  | .ok _ => false

/-- What a request's error must not have changed. -/
def Same (request : Request) (db after : AccessDb) : Prop := accepts request = true → after = db

variable {bad : Except HttpError Answer → Bool}

theorem clean_send {batch : Batch} {changed : ℕ} {conflict : String} {answer : Answer}
    {success : List ℕ}
    (hbatch : ∀ db, Inv platform db → (perform batch db).1 = db ∨
      (perform batch db).2 = some success)
    (hsuccess : ((List.range changed).all fun index ↦ success[index]? = some 1) = true)
    (hbad : bad (.ok answer) = false) :
    (Workflow.send batch (finish changed conflict answer)).Clean perform
      (Inv platform) (fun db after ↦ after = db) bad := by
  intro db hinv
  rcases hbatch db hinv with hsame | hreply
  · refine .inl ⟨hsame, ?_⟩
    unfold finish
    split
    · trivial
    · split <;> trivial
  · right
    rw [hreply, finish, if_pos hsuccess]
    exact hbad

theorem clean_requireInvitation {token : String} {now : ℤ} {next : InvitationRecord → Flow}
    {Unchanged : AccessDb → AccessDb → Prop}
    (h : ∀ invitation, (next invitation).Clean perform (Inv platform) Unchanged bad) :
    (requireInvitation platform token now next).Clean perform (Inv platform) Unchanged
      bad := by
  unfold requireInvitation
  split
  · trivial
  · intro db _
    dsimp only
    split
    · trivial
    · split
      · trivial
      · exact h _

theorem perform_acceptInvitation {db : AccessDb} (hinv : Inv platform db)
    (invitationId userId : String) (now : ℤ) (audit : AuditRow) :
    (perform (.acceptInvitation invitationId userId now audit) db).1 = db ∨
      (perform (.acceptInvitation invitationId userId now audit) db).2 =
        some [1, 1, 1] := by
  cases hreply : (perform (.acceptInvitation invitationId userId now audit) db).2 with
  | none => exact .inl (perform_of_none hreply)
  | some results =>
    rcases performFrom_acceptInvitation hinv (perform_eq_some hreply) with ⟨hsame, -⟩ | ⟨rfl, -⟩
    · exact .inl hsame
    · exact .inr rfl

theorem perform_register {db : AccessDb} (hinv : Inv platform db) (invitationId : String)
    (user : UserRow) (account : AccountRow) (now : ℤ) (audit : AuditRow) :
    (perform (.register invitationId user account now audit) db).1 = db ∨
      (perform (.register invitationId user account now audit) db).2 =
        some [1, 1, 1, 1, 1] := by
  cases hreply : (perform (.register invitationId user account now audit) db).2 with
  | none => exact .inl (perform_of_none hreply)
  | some results =>
    rcases performFrom_register hinv (perform_eq_some hreply) with ⟨hsame, -⟩ | ⟨rfl, -⟩
    · exact .inl hsame
    · exact .inr rfl

theorem clean_acceptInvitationForUser (token userId auditId : String)
    (hbad : ∀ answer, bad (.ok answer) = false) :
    (acceptInvitationForUser platform token userId auditId).Clean perform
      (Inv platform) (fun db after ↦ after = db) bad := by
  intro db _
  dsimp only
  split
  · trivial
  · apply clean_requireInvitation
    intro invitation
    split
    · trivial
    · split
      · trivial
      · exact clean_send (fun _ hinv ↦ perform_acceptInvitation hinv _ _ _ _) rfl (hbad _)

theorem clean_registerFromWorkspaceInvitation (token name password : String) (fresh : Fresh)
    (hbad : ∀ answer, bad (.ok answer) = false) :
    (registerFromWorkspaceInvitation platform token name password fresh).Clean
      perform (Inv platform) (fun db after ↦ after = db) bad := by
  unfold registerFromWorkspaceInvitation
  intro db _
  apply clean_requireInvitation
  intro invitation
  split
  · exact True.intro
  · split
    · exact True.intro
    · split
      · exact True.intro
      · exact clean_send (fun _ hinv ↦ perform_register hinv _ _ _ _ _) rfl (hbad _)

theorem clean_program (platform : Platform) (request : Request) :
    (program platform request).Clean perform (Inv platform) (Same request)
      (failed request) := by
  cases request with
  | acceptInvitationForUser token userId auditId =>
    exact (clean_acceptInvitationForUser token userId auditId fun _ ↦ rfl).mono fun _ _ h _ ↦ h
  | registerFromWorkspaceInvitation token name password fresh =>
    exact (clean_registerFromWorkspaceInvitation token name password fresh fun _ ↦ rfl).mono
      fun _ _ h _ ↦ h
  | _ =>
    refine Workflow.clean_of_never (Workflow.never_of_forall (fun outcome ↦ ?_) _)
    cases outcome <;> rfl

end Errors

/-! ## Every run -/

/-- No invitation has made two memberships, each membership is the one that its invitation
promises, and one invitation at most is pending for each recipient. -/
structure Single (platform : Platform) (db : AccessDb) : Prop where
  once : UniqueKey Yield.invitationId db.yields
  rightful : ∀ made ∈ db.yields, ∃ row ∈ db.invitations, Rightful platform row db.users made ∧
    row.acceptedAt = some made.membership.createdAt ∧ row.revokedAt = none
  pending : UniqueKey InvitationRow.target (db.invitations.filter InvitationRow.pending)

/-- Invitations are used once, by acceptances that began before they expired; an acceptance that
reports an error has changed nothing. -/
theorem invitations_used_once (platform : Platform) (actions : List (Action Request)) :
    Visits (step (program platform) perform)
        (fun system ↦ Single platform system.store) (start emptyDb) actions ∧
      Along (step (program platform) perform) (Performs (Orderly platform))
        (start emptyDb) actions ∧
      ∀ (index : ℕ) (request : Request) (error : HttpError), accepts request = true →
        (run (step (program platform) perform) (start emptyDb) actions).calls[index]? =
            some ⟨request, .ended (.error error)⟩ →
          Along (step (program platform) perform)
            (fun system action ↦ action.of = some index →
              (step (program platform) perform system action).store = system.store)
            (start emptyDb) actions := by
  obtain ⟨hvisits, horderly⟩ := along_orderly platform actions
  refine ⟨visits_mono (fun _ hinv ↦ ⟨hinv.once, hinv.yields, hinv.onePending⟩) hvisits, horderly, ?_⟩
  intro index request error haccepts hended
  have hrefl : ∀ request db, Same request db db := fun _ _ _ ↦ rfl
  have hsame := same_of_bad hrefl (clean_program platform)
    (fun _ hcall ↦ by cases List.mem_of_getElem? hcall) hvisits hended haccepts
  exact along_mono (fun _ _ hstep hof ↦ hstep hof haccepts) hsame

/-! ## An acceptance that takes its time -/

/-- ASCII letters only. -/
def asciiLower (text : String) : String :=
  String.ofList (text.toList.map Char.toLower)

theorem toLower_toLower (character : Char) : character.toLower.toLower = character.toLower := by
  by_cases hupper : character.val ≥ 'A'.val ∧ character.val ≤ 'Z'.val
  · have hlower : character.toLower.val = character.val + 32 :=
      congrArg Char.val (dif_pos hupper)
    have hnot : ¬(character.toLower.val ≥ 'A'.val ∧ character.toLower.val ≤ 'Z'.val) := by
      rw [hlower]
      simp only [ge_iff_le, UInt32.le_iff_toNat_le, UInt32.toNat_add] at hupper ⊢
      have hfirst : 'A'.val.toNat = 65 := rfl
      have hlast : 'Z'.val.toNat = 90 := rfl
      have hshift : UInt32.toNat 32 = 32 := rfl
      omega
    exact dif_neg hnot
  · have hsame : character.toLower = character := dif_neg hupper
    rw [hsame, hsame]

theorem asciiLower_idem (text : String) : asciiLower (asciiLower text) = asciiLower text := by
  rw [asciiLower, asciiLower, String.toList_ofList, List.map_map]
  congr 1
  exact List.map_congr_left fun character _ ↦ toLower_toLower character

def slowPlatform : Platform where
  invitationSecret := "invitation-secret-of-32-characters"
  hmac _ _ := List.replicate 32 7
  hashPassword _ := "hash"
  toLowerCase := asciiLower
  toLowerCase_idem := asciiLower_idem

def slowToken : String := "AAAAAAAAAAAAAAAAAAAAAAAAAAAAAAAAAAAAAAAAAAA"

/-- Seven days pass between the first step of the acceptance and the next one. -/
def slowActions : List (Action Request) :=
  [.call (.addUser ⟨"owner", "Owner", "owner@example.org"⟩), .advance 0,
    .call (.addUser ⟨"guest", "Guest", "guest@example.org"⟩), .advance 1,
    .call (.createWorkspace "owner" ⟨"Main", "main", 30, 60⟩ ⟨"w", "", "a1", ""⟩)] ++
  List.replicate 5 (.advance 2) ++
  [.call (.createWorkspaceInvitation ⟨"main", "owner"⟩ "Guest@Example.org" .member
      ⟨"i", "", "a2", slowToken⟩)] ++
  List.replicate 4 (.advance 3) ++
  [.call (.acceptInvitationForUser slowToken "guest" "a3"), .advance 4,
    .call (.pass 604800000), .advance 5, .advance 4, .advance 4]

/-- A membership is made only by an invitation that has not expired. -/
def InTime (db : AccessDb) (batch : Batch) : Prop :=
  ∀ made ∈ (perform batch db).1.yields.drop db.yields.length,
    ∃ row ∈ db.invitations, row.id = made.invitationId ∧ db.clock < row.expiresAt

instance (db : AccessDb) (batch : Batch) : Decidable (InTime db batch) :=
  inferInstanceAs (Decidable (∀ made ∈ (perform batch db).1.yields.drop
    db.yields.length, ∃ row ∈ db.invitations, row.id = made.invitationId ∧
      db.clock < row.expiresAt))


/-- The invitation has expired when the membership is made. -/
theorem slow_acceptance_after_expiry :
    ¬ Along (step (program slowPlatform) perform) (Performs InTime) (start emptyDb)
      slowActions := by
  decide +kernel

end AlphaPing.Access.Acceptances
