import Mathlib.Data.List.Induction
import Mathlib.Data.List.Nodup
import StorageScenario.Proofs.MemoryCalls
import StorageScenario.Proofs.Outcomes
import StorageScenario.Registry

/-!
Registries seen as histories of registrations, and the services that they resolve to. Of each
name the account stays that was registered last under it, and accounts stand in the order of
those last registrations. A scenario is given the service of the account that it prefers or
of the first that offers the location, and of no other account. Services that are resolved
for the same account and location work on one store.
-/

namespace StorageScenario

open Work

namespace ServiceHandle

def SharesStore (first second : ServiceHandle) : Prop :=
  ∀ name properties storage,
    let after := left ((first.container name).create properties) storage
    (second.container name).isPresent after = .ok true after

theorem present_after_create (first second : Account) (location place : Location)
    (name : String) (properties : ContainerProperties) (storage : Storage) :
    let after := left (((memory first location).container name).create properties) storage
    ((memory second place).container name).isPresent after =
      .ok (if (second.id, place) = (first.id, location) then true
        else (storage.store second place).contains name) after := by
  intro after
  have ran := ContainerHandle.create_on_memory first location name storage properties
  change (ContainerHandle.mk (.memory second place) name).isPresent after = _
  rw [ContainerHandle.is_present_on_memory]
  by_cases there : (storage.store first location).contains name = true
  · rw [if_pos there] at ran
    have unchanged : after = storage := left_of_ok ran
    rw [unchanged]
    split
    · rename_i same
      have sameStore : storage.store second place = storage.store first location := by
        unfold Storage.store
        rw [same]
      rw [sameStore, there]
    · rfl
  · rw [if_neg there] at ran
    have changed : after = _ := left_of_ok ran
    rw [changed, Storage.store_after_set_store]
    split
    · simp [Table.contains]
    · rfl

theorem shares_store_iff (first second : Account) (location place : Location) :
    (memory first location).SharesStore (memory second place) ↔
      first.id = second.id ∧ location = place := by
  constructor
  · intro shares
    let empty : Storage := .fresh (.ofDirectories ⟨0⟩ [])
    have nothing : (empty.store second place).contains "" = false := rfl
    have shown := shares "" {} empty
    have told := present_after_create first second location place "" {} empty
    rw [nothing] at told
    by_contra apart
    have otherKey : ¬ (second.id, place) = (first.id, location) := by
      intro same
      obtain ⟨sameId, samePlace⟩ := Prod.mk.inj same
      exact apart ⟨sameId.symm, samePlace.symm⟩
    rw [if_neg otherKey] at told
    cases told.symm.trans shown
  · rintro ⟨sameAccount, rfl⟩ name properties storage
    have told := present_after_create first second location location name properties storage
    rw [if_pos (by rw [sameAccount])] at told
    exact told

end ServiceHandle

namespace Registry

def afterAll (history : List Account) : Registry := history.foldl register empty

/-- The account is registered in the history, and none of those that are registered behind it
takes its name. -/
def LastRegistered (history : List Account) (account : Account) (behind : List Account) : Prop :=
  (∃ before, history = before ++ account :: behind) ∧
    ∀ other ∈ behind, other.name ≠ account.name

/-- What stays of the first was registered before what stays of the second. -/
def StaysBefore (history : List Account) (first second : Account) : Prop :=
  ∃ behind, LastRegistered history first behind ∧ second ∈ behind

def FirstOffering (accounts : List Account) (location : Location) (account : Account) : Prop :=
  account.kind.offers location = true ∧
    ∃ before behind, accounts = before ++ account :: behind ∧
      ∀ other ∈ before, other.kind.offers location = false

section Histories

variable (history : List Account) (new : Account)

theorem after_all_snoc :
    (afterAll (history ++ [new])).accounts =
      ((afterAll history).accounts.filter fun other => other.name ≠ new.name) ++ [new] := by
  unfold afterAll
  rw [List.foldl_append]
  rfl

variable {history new}

theorem last_registered_longer {account : Account} {behind : List Account}
    (last : LastRegistered history account behind) (otherName : account.name ≠ new.name) :
    LastRegistered (history ++ [new]) account (behind ++ [new]) := by
  obtain ⟨⟨before, rfl⟩, none⟩ := last
  refine ⟨⟨before, by simp⟩, ?_⟩
  intro other member
  rcases List.mem_append.mp member with old | isNew
  · exact none other old
  · rw [List.mem_singleton.mp isNew]
    exact Ne.symm otherName

theorem last_registered_snoc_iff {account : Account} :
    (∃ behind, LastRegistered (history ++ [new]) account behind) ↔
      account = new ∨
        account.name ≠ new.name ∧ ∃ behind, LastRegistered history account behind := by
  constructor
  · rintro ⟨behind, ⟨before, split⟩, none⟩
    rcases behind.eq_nil_or_concat' with rfl | ⟨shorter, last, rfl⟩
    · exact Or.inl (List.append_inj' split rfl |>.2 |> List.singleton_inj.mp).symm
    · rw [← List.cons_append, ← List.append_assoc] at split
      obtain ⟨same, isLast⟩ := List.append_inj' split rfl
      cases isLast
      refine Or.inr ⟨fun sameName => none new (by simp) sameName.symm, shorter,
        ⟨before, same⟩, ?_⟩
      exact fun other member => none other (List.mem_append_left _ member)
  · rintro (rfl | ⟨otherName, behind, last⟩)
    · exact ⟨[], ⟨history, rfl⟩, by simp⟩
    · exact ⟨_, last_registered_longer last otherName⟩

theorem mem_accounts_iff (history : List Account) (account : Account) :
    account ∈ (afterAll history).accounts ↔
      ∃ behind, LastRegistered history account behind := by
  -- The induction is on the history from its end, where a registration takes effect.
  induction history using List.reverseRecOn with
  | nil =>
      constructor
      · intro member
        cases member
      · rintro ⟨behind, ⟨before, split⟩, _⟩
        simp at split
  | append_singleton history new ih =>
      rw [after_all_snoc, last_registered_snoc_iff, List.mem_append, List.mem_filter,
        List.mem_singleton, ih, decide_eq_true_iff, or_comm, and_comm]

theorem names_distinct (history : List Account) :
    ((afterAll history).accounts.map Account.name).Nodup := by
  induction history using List.reverseRecOn with
  | nil => exact List.nodup_nil
  | append_singleton history new ih =>
      rw [after_all_snoc, List.map_append, List.map_singleton, List.nodup_append]
      refine ⟨ih.sublist (List.filter_sublist.map Account.name), by simp, ?_⟩
      intro first isOld second isNew same
      obtain ⟨account, member, rfl⟩ := List.mem_map.mp isOld
      have otherName := of_decide_eq_true (List.mem_filter.mp member).2
      exact otherName (same.trans (List.mem_singleton.mp isNew))

theorem accounts_in_order (history : List Account) :
    (afterAll history).accounts.Pairwise (StaysBefore history) := by
  induction history using List.reverseRecOn with
  | nil => exact List.Pairwise.nil
  | append_singleton history new ih =>
      have kept : ∀ account ∈ (afterAll history).accounts.filter fun other =>
          other.name ≠ new.name, account.name ≠ new.name :=
        fun account member => of_decide_eq_true (List.mem_filter.mp member).2
      rw [after_all_snoc, List.pairwise_append]
      refine ⟨?_, List.pairwise_singleton _ _, ?_⟩
      · refine (ih.filter _).imp_of_mem ?_
        rintro first second isFirst _ ⟨behind, last, member⟩
        exact ⟨_, last_registered_longer last (kept first isFirst),
          List.mem_append_left _ member⟩
      · intro first isFirst second isNew
        obtain ⟨behind, last⟩ :=
          (mem_accounts_iff history first).mp (List.mem_filter.mp isFirst).1
        exact ⟨_, last_registered_longer last (kept first isFirst),
          List.mem_append_right behind isNew⟩

/-- Since names are distinct, a look-up finds the one account of its name. -/
theorem account_iff (history : List Account) (name : String) (account : Account) :
    (afterAll history).account? name = some account ↔
      account.name = name ∧ ∃ behind, LastRegistered history account behind := by
  rw [← mem_accounts_iff]
  unfold account?
  constructor
  · intro found
    have sameName := List.find?_some found
    exact ⟨of_decide_eq_true sameName, List.mem_of_find?_eq_some found⟩
  · rintro ⟨rfl, member⟩
    have isFound : ((afterAll history).accounts.find? fun other =>
        other.name = account.name).isSome = true :=
      List.find?_isSome.mpr ⟨account, member, by simp⟩
    obtain ⟨other, found⟩ := Option.isSome_iff_exists.mp isFound
    have sameName := List.find?_some found
    rw [decide_eq_true_iff] at sameName
    rw [found, List.inj_on_of_nodup_map (names_distinct history)
      (List.mem_of_find?_eq_some found) member sameName]

end Histories

section Roots

variable {registry : Registry} {location : Location} {preferred : Option String}
  {session : Session}

theorem find_offering_iff (accounts : List Account) (location : Location) (account : Account) :
    (accounts.find? fun other => other.kind.offers location) = some account ↔
      FirstOffering accounts location account := by
  rw [List.find?_eq_some_iff_append]
  unfold FirstOffering
  simp

variable (wet : session.context.settings.dryRun = false) (remote : location.isRemote = true)
include wet remote

theorem root_missing (none : registry.choose location preferred = none) :
    outcome (registry.rootResource location preferred) session =
        .error (.noAccountForLocation location) ∧
      (left (registry.rootResource location preferred) session).storage = session.storage := by
  have failed : registry.rootResource location preferred session =
      .error (.noAccountForLocation location) session := by
    refine bind_error_iff.mpr (Or.inr ⟨session.context, session, rfl, ?_⟩)
    dsimp only
    rw [wet, remote, none]
    rfl
  exact ⟨outcome_of_error failed, by rw [left_of_error failed]⟩

/-- The account that is chosen is asked, and its own stores decide. -/
theorem root_chosen {account : Account}
    (chosen : registry.choose location preferred = some account) :
    outcome (registry.rootResource location preferred) session =
        (if account.kind.offers location = true then
          .ok (.service (.memory account location))
        else .error (.backend .getService account.name
          (.serviceUnavailable account.name location))) ∧
      (left (registry.rootResource location preferred) session).storage = session.storage := by
  obtain ⟨log, noted⟩ := note_yields .debug ("resolving the " ++ location.name ++
    " service of account " ++ account.name) session
  have offering := account.mem_stores_iff location
  split
  · rename_i offers
    have ran : registry.rootResource location preferred session =
        .ok (.service (.memory account location)) ⟨session.context, session.storage, log⟩ := by
      refine bind_ok_iff.mpr ⟨session.context, session, rfl, ?_⟩
      dsimp only
      rw [wet, remote, chosen]
      refine bind_ok_iff.mpr ⟨(), _, noted, ?_⟩
      unfold Account.service
      rw [if_pos (offering.mpr offers)]
      rfl
    exact ⟨outcome_of_ok ran, by rw [left_of_ok ran]⟩
  · rename_i refuses
    have failed : registry.rootResource location preferred session =
        .error (.backend .getService account.name (.serviceUnavailable account.name location))
          ⟨session.context, session.storage, log⟩ := by
      refine bind_error_iff.mpr (Or.inr ⟨session.context, session, rfl, ?_⟩)
      dsimp only
      rw [wet, remote, chosen]
      refine bind_error_iff.mpr (Or.inr ⟨(), _, noted, ?_⟩)
      unfold Account.service
      rw [if_neg (mt offering.mp refuses)]
      rfl
    exact ⟨outcome_of_error failed, by rw [left_of_error failed]⟩

theorem root_ok_iff (resource : Resource) :
    outcome (registry.rootResource location preferred) session = .ok resource ↔
      ∃ account, registry.choose location preferred = some account ∧
        account.kind.offers location = true ∧ resource = .service (.memory account location) := by
  constructor
  · intro ran
    cases chosen : registry.choose location preferred with
    | none => cases (root_missing wet remote chosen).1.symm.trans ran
    | some account =>
        rw [(root_chosen wet remote chosen).1] at ran
        split at ran
        · rename_i offers
          cases ran
          exact ⟨account, rfl, offers, rfl⟩
        · cases ran
  · rintro ⟨account, chosen, offers, rfl⟩
    rw [(root_chosen wet remote chosen).1, if_pos offers]

theorem root_error_iff (error : ScenarioError) :
    outcome (registry.rootResource location preferred) session = .error error ↔
      registry.choose location preferred = none ∧ error = .noAccountForLocation location ∨
        ∃ account, registry.choose location preferred = some account ∧
          account.kind.offers location = false ∧
            error = .backend .getService account.name
              (.serviceUnavailable account.name location) := by
  constructor
  · intro ran
    cases chosen : registry.choose location preferred with
    | none =>
        cases (root_missing wet remote chosen).1.symm.trans ran
        exact Or.inl ⟨rfl, rfl⟩
    | some account =>
        rw [(root_chosen wet remote chosen).1] at ran
        split at ran
        · cases ran
        · rename_i refuses
          cases ran
          exact Or.inr ⟨account, rfl, Bool.eq_false_iff.mpr refuses, rfl⟩
  · rintro (⟨missing, rfl⟩ | ⟨account, chosen, refuses, rfl⟩)
    · exact (root_missing wet remote missing).1
    · rw [(root_chosen wet remote chosen).1, if_neg (by simp [refuses])]

end Roots

/-- After any registrations no name is registered twice, the account of a name is the one that
was registered last under it, and the order is that of those last registrations. A scenario
that prefers no account is given the service of the first account in this order whose kind
offers the location, and only fails if there is none, for that reason. One that prefers an
account is given the service of that account or none. A look-up changes nothing that is
stored, and the services of two of them share a store if they are of the same account and
location, and only then. -/
theorem registry_resolution (history : List Account) :
    let registry := afterAll history
    (registry.accounts.map Account.name).Nodup ∧
    registry.accounts.Pairwise (StaysBefore history) ∧
    (∀ account, account ∈ registry.accounts ↔
      ∃ behind, LastRegistered history account behind) ∧
    (∀ name account, registry.account? name = some account ↔
      account.name = name ∧ ∃ behind, LastRegistered history account behind) ∧
    ∀ location (session : Session), session.context.settings.dryRun = false →
      location.isRemote = true →
        (∀ resource, outcome (registry.rootResource location none) session = .ok resource ↔
          ∃ account, FirstOffering registry.accounts location account ∧
            resource = .service (.memory account location)) ∧
        (∀ error, outcome (registry.rootResource location none) session = .error error ↔
          (∀ account ∈ registry.accounts, account.kind.offers location = false) ∧
            error = .noAccountForLocation location) ∧
        (∀ name resource,
          outcome (registry.rootResource location (some name)) session = .ok resource ↔
            ∃ account, registry.account? name = some account ∧
              account.kind.offers location = true ∧
                resource = .service (.memory account location)) ∧
        (∀ name error,
          outcome (registry.rootResource location (some name)) session = .error error ↔
            registry.account? name = none ∧ error = .noAccountForLocation location ∨
              ∃ account, registry.account? name = some account ∧
                account.kind.offers location = false ∧
                  error = .backend .getService name (.serviceUnavailable name location)) ∧
        (∀ preferred,
          (left (registry.rootResource location preferred) session).storage = session.storage) ∧
        ∀ others place (again : Session) preferred other first second,
          again.context.settings.dryRun = false → place.isRemote = true →
          outcome (registry.rootResource location preferred) session = .ok (.service first) →
          outcome ((afterAll others).rootResource place other) again = .ok (.service second) →
            (first.SharesStore second ↔
              first.account?.map Account.id = second.account?.map Account.id ∧
                location = place) := by
  intro registry
  refine ⟨names_distinct history, accounts_in_order history, mem_accounts_iff history,
    account_iff history, ?_⟩
  intro location session wet remote
  refine ⟨?first, ?noneOffers, ?preferred, ?refused, ?unchanged, ?shared⟩
  case first =>
    intro resource
    rw [root_ok_iff wet remote]
    refine exists_congr fun account => ?_
    have chosen := find_offering_iff registry.accounts location account
    change registry.choose location none = some account ↔ _ at chosen
    rw [chosen]
    exact ⟨fun found => ⟨found.1, found.2.2⟩,
      fun found => ⟨found.1, found.1.1, found.2⟩⟩
  case noneOffers =>
    intro error
    rw [root_error_iff wet remote]
    have chosen : registry.choose location none = none ↔
        ∀ account ∈ registry.accounts, account.kind.offers location = false := by
      refine List.find?_eq_none.trans ?_
      simp
    rw [chosen]
    refine or_iff_left ?_
    rintro ⟨account, found, refuses, _⟩
    have offers := ((find_offering_iff registry.accounts location account).mp found).1
    exact Bool.false_ne_true (refuses.symm.trans offers)
  case preferred =>
    intro name resource
    exact root_ok_iff wet remote resource
  case refused =>
    intro name error
    rw [root_error_iff wet remote]
    refine or_congr_right (exists_congr fun account => and_congr_right fun found => ?_)
    rw [((account_iff history name account).mp found).1]
  case unchanged =>
    intro preferred
    cases chosen : registry.choose location preferred with
    | none => exact (root_missing wet remote chosen).2
    | some account => exact (root_chosen wet remote chosen).2
  case shared =>
    intro others place again preferred other first second wetAgain remotePlace ran ranAgain
    obtain ⟨account, _, _, isFirst⟩ := (root_ok_iff wet remote _).mp ran
    obtain ⟨another, _, _, isSecond⟩ := (root_ok_iff wetAgain remotePlace _).mp ranAgain
    cases isFirst
    cases isSecond
    rw [ServiceHandle.shares_store_iff]
    simp [ServiceHandle.account?]

/-- The account `a` is registered again as one that serves shares, and moves behind `b`. -/
theorem registry_resolution_replaced :
    let first : Account := ⟨0, "a", .premiumPageBlobs⟩
    let second : Account := ⟨1, "b", .standard⟩
    let again : Account := ⟨2, "a", .premiumFileShares⟩
    let registry := afterAll [first, second, again]
    let session : Session :=
      ⟨⟨"scenario", {}, .counting "n", [], []⟩, .fresh (.ofDirectories ⟨0⟩ []), []⟩
    session.context.settings.dryRun = false ∧ Location.file.isRemote = true ∧
      registry.accounts = [second, again] ∧ registry.account? "a" = some again ∧
      outcome (registry.rootResource .file none) session =
        .ok (.service (.memory second .file)) ∧
      outcome (registry.rootResource .fileNfs none) session =
        .ok (.service (.memory again .fileNfs)) ∧
      outcome (registry.rootResource .file (some "a")) session =
        .ok (.service (.memory again .file)) ∧
      outcome (registry.rootResource .blob (some "a")) session =
        .error (.backend .getService "a" (.serviceUnavailable "a" .blob)) ∧
      outcome (registry.rootResource .blob (some "c")) session =
        .error (.noAccountForLocation .blob) ∧
      outcome ((afterAll [again]).rootResource .blob none) session =
        .error (.noAccountForLocation .blob) ∧
      (ServiceHandle.memory again .file).SharesStore (.memory again .file) := by
  intro first second again registry session
  have isList : registry.accounts = [second, again] := by decide
  obtain ⟨_, _, _, named, resolves⟩ := registry_resolution [first, second, again]
  have isNamed : registry.account? "a" = some again :=
    (named "a" again).mpr ⟨rfl, [], ⟨[first, second], rfl⟩, by simp⟩
  obtain ⟨fromFirst, _, fromNamed, _, _, shared⟩ := resolves .file session rfl rfl
  have ranFile := (fromNamed "a" _).mpr ⟨again, isNamed, rfl, rfl⟩
  refine ⟨rfl, rfl, isList, isNamed, ?_, ?_, ranFile, ?_, ?_, ?_, ?_⟩
  · exact (fromFirst _).mpr ⟨second, ⟨rfl, [], [again], isList, by simp⟩, rfl⟩
  · refine ((resolves .fileNfs session rfl rfl).1 _).mpr
      ⟨again, ⟨rfl, [second], [], isList, ?_⟩, rfl⟩
    simp [second, AccountKind.offers, AccountKind.services]
  · exact ((resolves .blob session rfl rfl).2.2.2.1 "a" _).mpr
      (Or.inr ⟨again, isNamed, rfl, rfl⟩)
  · exact ((resolves .blob session rfl rfl).2.2.2.1 "c" _).mpr (Or.inl ⟨by decide, rfl⟩)
  · refine (((registry_resolution [again]).2.2.2.2 .blob session rfl rfl).2.1 _).mpr ⟨?_, rfl⟩
    have alone : (afterAll [again]).accounts = [again] := rfl
    rw [alone]
    simp [again, AccountKind.offers, AccountKind.services]
  · exact (shared _ .file session (some "a") (some "a") _ _ rfl rfl ranFile ranFile).mpr
      ⟨rfl, rfl⟩

end Registry

end StorageScenario
