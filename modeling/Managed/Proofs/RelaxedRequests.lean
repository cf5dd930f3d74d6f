import Managed.Proofs.IdentityRoundTrip
import Managed.Proofs.LookupTrails
import Managed.Proofs.Resolution

namespace Managed

namespace Version

inductive AtMost (lower upper : Version) : Prop where
  | major (less : lower.major < upper.major)
  | minor (major : lower.major = upper.major) (less : lower.minor < upper.minor)
  | build (major : lower.major = upper.major) (minor : lower.minor = upper.minor)
    (less : lower.build < upper.build)
  | revision (major : lower.major = upper.major) (minor : lower.minor = upper.minor)
    (build : lower.build = upper.build) (least : lower.revision ≤ upper.revision)

theorem rank_eq (version : Version) :
    version.rank = ((version.major.toNat * UInt16.size + version.minor.toNat) * UInt16.size +
      version.build.toNat) * UInt16.size + version.revision.toNat := by
  simp [rank, components]

theorem le_iff_atMost {lower upper : Version} : lower ≤ upper ↔ lower.AtMost upper := by
  have minor_lower := lower.minor.toNat_lt
  have minor_upper := upper.minor.toNat_lt
  have build_lower := lower.build.toNat_lt
  have build_upper := upper.build.toNat_lt
  have revision_lower := lower.revision.toNat_lt
  have revision_upper := upper.revision.toNat_lt
  have ranked : lower ≤ upper ↔ lower.rank ≤ upper.rank := Iff.rfl
  rw [ranked, rank_eq, rank_eq, UInt16.size]
  constructor
  · intro least
    by_cases major : lower.major = upper.major
    · by_cases minor : lower.minor = upper.minor
      · by_cases build : lower.build = upper.build
        · rw [major, minor, build] at least
          exact .revision major minor build (UInt16.le_iff_toNat_le.mpr (by omega))
        · have build := mt UInt16.toNat_inj.mp build
          rw [major, minor] at least
          exact .build major minor (UInt16.lt_iff_toNat_lt.mpr (by omega))
      · have minor := mt UInt16.toNat_inj.mp minor
        rw [major] at least
        exact .minor major (UInt16.lt_iff_toNat_lt.mpr (by omega))
    · have major := mt UInt16.toNat_inj.mp major
      exact .major (UInt16.lt_iff_toNat_lt.mpr (by omega))
  · intro at_most
    cases at_most with
    | major less =>
      have less := UInt16.lt_iff_toNat_lt.mp less
      omega
    | minor major less =>
      have less := UInt16.lt_iff_toNat_lt.mp less
      rw [major]
      omega
    | build major minor less =>
      have less := UInt16.lt_iff_toNat_lt.mp less
      rw [major, minor]
      omega
    | revision major minor build least =>
      have least := UInt16.le_iff_toNat_le.mp least
      rw [major, minor, build]
      omega

end Version

/-- The same candidate with its version raised. One without a version may get any. -/
inductive Identity.Raised (candidate : Identity) : Identity → Prop where
  | declared {found higher : Version} (given : candidate.version = some found)
      (raised : found.AtMost higher) : Raised candidate { candidate with version := some higher }
  | undeclared (absent : candidate.version = none) (version : Option Version) :
    Raised candidate { candidate with version }

namespace Request

structure Relaxes (lax request : Request) : Prop where
  name : lax.name = request.name
  version : lax.version = none ∨ ∃ lower least, lax.version = some lower ∧
    request.version = some least ∧ lower.AtMost least
  token : lax.token = none ∨ lax.token = request.token

variable {lax request : Request} {candidate raised : Identity} {found : List Module}
  {chosen : Module}

theorem allowsVersion_iff {version : Option Version} :
    request.AllowsVersion version ↔
      ∀ least, request.version = some least → ∃ found, version = some found ∧ least ≤ found := by
  unfold AllowsVersion
  cases request.version with
  | none => simp
  | some least => cases version <;> simp

theorem allowsToken_iff {token : Option PublicKeyToken} :
    request.AllowsToken token ↔
      ∀ wanted, request.token = some wanted → ∀ found, token = some found →
        found.isEmpty = true ∨ wanted.bytes = found.bytes := by
  unfold AllowsToken
  cases request.token with
  | none => simp
  | some wanted => cases token <;> simp

theorem Relaxes.allows (relaxes : lax.Relaxes request) (allowed : request.Allows candidate) :
    lax.Allows candidate := by
  obtain ⟨name, version, token⟩ := allowed
  rw [allowsVersion_iff] at version
  rw [allowsToken_iff] at token
  refine ⟨name.trans relaxes.name.symm, allowsVersion_iff.mpr ?_, allowsToken_iff.mpr ?_⟩
  · intro lower lower_asked
    rcases relaxes.version with absent | ⟨same, least, same_asked, least_asked, lower_least⟩
    · rw [absent] at lower_asked
      cases lower_asked
    · obtain rfl : same = lower := Option.some.inj (same_asked.symm.trans lower_asked)
      obtain ⟨declared, given, reached⟩ := version least least_asked
      exact ⟨declared, given, Nat.le_trans (Version.le_iff_atMost.mpr lower_least) reached⟩
  · intro wanted asked
    rcases relaxes.token with absent | same
    · rw [absent] at asked
      cases asked
    · exact token wanted (same ▸ asked)

theorem allows_raised (allowed : request.Allows candidate) (raises : candidate.Raised raised) :
    request.Allows raised := by
  obtain ⟨name, version, token⟩ := allowed
  rw [allowsVersion_iff] at version
  cases raises with
  | @declared declared higher given raised =>
    refine ⟨name, allowsVersion_iff.mpr fun least asked => ⟨higher, rfl, ?_⟩, token⟩
    obtain ⟨same, same_given, reached⟩ := version least asked
    obtain rfl : same = declared := Option.some.inj (same_given.symm.trans given)
    exact Nat.le_trans reached (Version.le_iff_atMost.mpr raised)
  | undeclared absent other =>
    refine ⟨name, allowsVersion_iff.mpr fun least asked => ?_, token⟩
    obtain ⟨declared, given, -⟩ := version least asked
    rw [absent] at given
    cases given

/-- The last candidate that satisfies a relaxed request is not before the one for the request. -/
theorem IsLastAllowed.relaxed (is_last : request.IsLastAllowed found chosen)
    (relaxes : lax.Relaxes request) :
    ∃ other, lax.IsLastAllowed found other ∧
      ∃ early late : Nat, early ≤ late ∧ found[early]? = some chosen ∧
        found[late]? = some other := by
  obtain ⟨before, after, split, allowed, -⟩ := is_last
  have at_early : found[before.length]? = some chosen := by
    rw [split]
    simp
  rcases Resolver.last_or_refused lax found with ⟨other, is_last⟩ | refused
  · refine ⟨other, is_last, ?_⟩
    obtain ⟨front, back, split_other, -, refused⟩ := is_last
    have at_late : found[front.length]? = some other := by
      rw [split_other]
      simp
    refine ⟨before.length, front.length, ?_, at_early, at_late⟩
    -- What stands behind the last candidate that satisfies the relaxed request does not satisfy it.
    by_contra behind
    have later : front.length < before.length := Nat.not_le.mp behind
    obtain ⟨steps, steps_eq⟩ := Nat.exists_eq_add_of_lt later
    rw [split_other, steps_eq, List.getElem?_append_right (by omega)] at at_early
    have in_back : back[steps]? = some chosen := by
      have index : front.length + steps + 1 - front.length = steps + 1 := by omega
      rwa [index, List.getElem?_cons_succ] at at_early
    exact refused chosen (List.mem_of_getElem? in_back) (relaxes.allows allowed)
  · exact absurd (relaxes.allows allowed) (refused chosen (List.mem_of_getElem? at_early))

end Request

namespace Catalog

/-- A list of candidates that has been answered is answered again, even if the files change. -/
theorem candidates_again [Image.Parser] {catalog : Catalog} {files : FileSystem} {name : String}
    {found : List Module} (answered : (catalog.candidates files name).1 = .ok (some found))
    (later : FileSystem) :
    ((catalog.candidates files name).2.candidates later name).1 = .ok (some found) :=
  congrArg Prod.fst
    (ModuleStore.run_candidates_published (ModuleStore.find?_run_candidates answered))

end Catalog

namespace Resolver

variable {resolver : Resolver} {request : Request} {tables : PathTables}
  {outcome : Except Error (Option (List Module))} {chosen : Module}

/-- Whom a strict request is given if several candidates are no error. -/
theorem answer_strict (answered : ModuleStore.CandidatesAnswer tables request.name outcome)
    (passes : resolver.failOnAmbiguity = false) :
    resolver.answer request true outcome = .ok (some chosen) ↔
      ∃ found, outcome = .ok (some found) ∧ request.IsLastAllowed found chosen := by
  constructor
  · intro given
    have verdict : Verdict resolver request outcome (.ok (some chosen)) := by
      rw [← given]
      exact answer_verdict answered
    cases verdict with
    | chosen is_last clear => exact ⟨_, rfl, is_last⟩
  · intro decides
    obtain ⟨found, rfl, is_last⟩ := decides
    exact answer_eq_of_verdict answered (.chosen is_last (.inl passes))

/-- Whom a request is given that is not strict, of the candidates that were found. -/
theorem pick_lenient {found : List Module} (nonempty : found ≠ []) :
    forgive false (resolver.pick request false found) = .ok (some chosen) ↔
      found = [chosen] ∨ request.IsLastAllowed found chosen := by
  rcases sole_or_several nonempty with ⟨sole, rfl⟩ | several
  · have given : resolver.pick request false [sole] = .ok (some sole) := rfl
    rw [given, isLastAllowed_sole]
    constructor
    · intro same
      cases same
      exact .inl rfl
    · intro either
      rcases either with same | ⟨rfl, -⟩
      · cases same
        rfl
      · rfl
  · have not_sole : found ≠ [chosen] := by
      rintro rfl
      exact absurd several (by simp)
    rw [pick_several several, or_iff_right not_sole]
    rcases last_or_refused request found with ⟨last, is_last⟩ | refused
    · have given : resolver.pickAmong request false found = .ok (some last) :=
        pickAmong_last is_last
      rw [given, ← Request.getLast?_allowed, Request.getLast?_allowed.mpr is_last]
      exact ⟨Except.ok.inj, congrArg Except.ok⟩
    · rw [pickAmong_refused refused, ← Request.getLast?_allowed,
        Request.allowed_eq_nil.mpr refused]
      exact ⟨nofun, nofun⟩

theorem answer_lenient (answered : ModuleStore.CandidatesAnswer tables request.name outcome) :
    forgive false (resolver.answer request false outcome) = .ok (some chosen) ↔
      ∃ found, outcome = .ok (some found) ∧
        (found = [chosen] ∨ request.IsLastAllowed found chosen) := by
  cases answered with
  | unlisted unlisted => exact ⟨nofun, nofun⟩
  | failed error failure listed => exact ⟨nofun, nofun⟩
  | found found nonempty distinct listed =>
    rw [answer, pick_lenient nonempty]
    constructor
    · exact fun either => ⟨found, rfl, either⟩
    · intro decides
      obtain ⟨list, same, either⟩ := decides
      cases same
      exact either

/-- Only the answer to the lookup of the candidates matters to a request. -/
theorem resolve_congr [Image.Parser] {catalog other : Catalog} {files later : FileSystem}
    {strict : Bool}
    (same : (catalog.candidates files request.name).1 = (other.candidates later request.name).1) :
    (resolver.resolve catalog files request strict).1 =
      (resolver.resolve other later request strict).1 := by
  rw [resolve, resolve, same]

section Relaxing

variable [Image.Parser] {lax : Request} {catalog : Catalog} {files : FileSystem} {found : List Module}

/-- A request whose candidates are known changes no answer to a request for the same name. -/
theorem resolve_after (same : lax.name = request.name)
    (found_eq : (catalog.candidates files request.name).1 = .ok (some found)) (strict : Bool) :
    (resolver.resolve (resolver.resolve catalog files request strict).2 files lax strict).1 =
      (resolver.resolve catalog files lax strict).1 := by
  have again : ((catalog.candidates files request.name).2.candidates files request.name).1 =
      .ok (some found) := Catalog.candidates_again found_eq files
  refine resolve_congr ?_
  rw [same, found_eq]
  exact again

theorem relaxed_strict (relaxes : lax.Relaxes request) (reachable : catalog.Reachable)
    (passes : resolver.failOnAmbiguity = false)
    (given : (resolver.resolve catalog files request true).1 = .ok (some chosen)) :
    ∃ found other, (catalog.candidates files request.name).1 = .ok (some found) ∧
      (found.map (·.id)).Nodup ∧
      (∃ early late : Nat, early ≤ late ∧ found[early]? = some chosen ∧
        found[late]? = some other) ∧
      (resolver.resolve catalog files lax true).1 = .ok (some other) := by
  have answered := reachable.candidates files request.name
  have lax_answered := reachable.candidates files lax.name
  obtain ⟨found, found_eq, is_last⟩ :=
    (answer_strict answered passes).mp ((forgive_true _).symm.trans given)
  obtain ⟨other, other_last, positions⟩ := is_last.relaxed relaxes
  have lax_found : (catalog.candidates files lax.name).1 = .ok (some found) := by
    rw [relaxes.name]
    exact found_eq
  have distinct : (found.map (·.id)).Nodup := by
    rw [found_eq] at answered
    cases answered with
    | found _ nonempty distinct listed => exact distinct
  exact ⟨found, other, found_eq, distinct, positions,
    (forgive_true _).trans ((answer_strict lax_answered passes).mpr ⟨found, lax_found, other_last⟩)⟩

theorem relaxed_lenient (relaxes : lax.Relaxes request) (reachable : catalog.Reachable)
    (given : (resolver.resolve catalog files request false).1 = .ok (some chosen)) :
    ∃ found other, (catalog.candidates files request.name).1 = .ok (some found) ∧
      (resolver.resolve catalog files lax false).1 = .ok (some other) := by
  have answered := reachable.candidates files request.name
  have lax_answered := reachable.candidates files lax.name
  obtain ⟨found, found_eq, either⟩ := (answer_lenient answered).mp given
  have lax_found : (catalog.candidates files lax.name).1 = .ok (some found) := by
    rw [relaxes.name]
    exact found_eq
  -- A single candidate is given whatever is asked for.
  rcases either with sole | is_last
  · exact ⟨found, chosen, found_eq, (answer_lenient lax_answered).mpr ⟨found, lax_found, .inl sole⟩⟩
  · obtain ⟨other, other_last, -⟩ := is_last.relaxed relaxes
    exact ⟨found, other, found_eq,
      (answer_lenient lax_answered).mpr ⟨found, lax_found, .inr other_last⟩⟩

end Relaxing

/-- A relaxed request is satisfied by whoever satisfies the request, and answered if it is: with
    a candidate that is not before the one for the request if it is strict. This is so in the same
    state of a catalog and in the state after the request. -/
theorem relaxing_keeps_match [Image.Parser] {lax request : Request} (relaxes : lax.Relaxes request) :
    (∀ candidate, request.Allows candidate → lax.Allows candidate ∧
      ∀ raised, candidate.Raised raised → request.Allows raised ∧ lax.Allows raised) ∧
    ∀ (catalog : Catalog) (files : FileSystem) (resolver : Resolver), catalog.Reachable →
      (resolver.failOnAmbiguity = false → ∀ chosen,
        (resolver.resolve catalog files request true).1 = .ok (some chosen) →
          ∃ found other, (catalog.candidates files request.name).1 = .ok (some found) ∧
            (found.map (·.id)).Nodup ∧
            (∃ early late : Nat, early ≤ late ∧ found[early]? = some chosen ∧
              found[late]? = some other) ∧
            (resolver.resolve catalog files lax true).1 = .ok (some other) ∧
            (resolver.resolve (resolver.resolve catalog files request true).2 files lax true).1 =
              .ok (some other)) ∧
      ∀ chosen, (resolver.resolve catalog files request false).1 = .ok (some chosen) →
        ∃ other, (resolver.resolve catalog files lax false).1 = .ok (some other) ∧
          (resolver.resolve (resolver.resolve catalog files request false).2 files lax false).1 =
            .ok (some other) := by
  refine ⟨fun candidate allowed => ?_, fun catalog files resolver reachable => ?_⟩
  · have still : ∀ raised, candidate.Raised raised → request.Allows raised := fun raised =>
      Request.allows_raised allowed
    exact ⟨relaxes.allows allowed, fun raised raises =>
      ⟨still raised raises, relaxes.allows (still raised raises)⟩⟩
  · refine ⟨fun passes chosen given => ?_, fun chosen given => ?_⟩
    · obtain ⟨found, other, found_eq, distinct, positions, lax_given⟩ :=
        relaxed_strict relaxes reachable passes given
      exact ⟨found, other, found_eq, distinct, positions, lax_given,
        (resolve_after relaxes.name found_eq true).trans lax_given⟩
    · obtain ⟨found, other, found_eq, lax_given⟩ := relaxed_lenient relaxes reachable given
      exact ⟨other, lax_given, (resolve_after relaxes.name found_eq false).trans lax_given⟩

def imageOf (metadata : Bytes) : Bytes :=
  let zeros (count : Nat) : Bytes := List.replicate count 0
  let whole := Bytes.ofNat 4 (424 + metadata.length)
  [0x4D, 0x5A] ++ zeros 58 ++ [0x40, 0, 0, 0] ++
  [0x50, 0x45, 0, 0, 0x4C, 1, 1, 0] ++ zeros 12 ++ [0xE0, 0, 0, 0] ++
  [0x0B, 1] ++ zeros 34 ++ [0, 2, 0, 0] ++ zeros 52 ++ [16, 0, 0, 0] ++ zeros 112 ++
  [0x60, 1, 0, 0, 72, 0, 0, 0] ++ zeros 8 ++
  -- The section is the whole file.
  zeros 8 ++ whole ++ zeros 4 ++ whole ++ zeros 20 ++
  [72, 0, 0, 0, 2, 0, 5, 0, 0xA8, 1, 0, 0] ++ Bytes.ofNat 4 metadata.length ++ zeros 56 ++ metadata

def libraryMetadata (version : Version) : Bytes :=
  let manifest := Metadata.Draft.small.manifest.map fun manifest => { manifest with version }
  let tables := { Metadata.Draft.small with manifest }.bytes
  let strings := Metadata.Draft.smallStrings
  let root : Metadata.Root :=
    { major := 1, minor := 1, version := "v4", flags := 0
      headers := [⟨56, tables.length, .tables⟩, ⟨56 + tables.length, strings.length, .strings⟩] }
  root.encode [0x76, 0x34, 0, 0] 0 ++ tables ++ strings

/-- The assembly is there in two versions, the newer one first. -/
def versionFiles : FileSystem where
  canonicalize := .ok
  read path :=
    .ok (imageOf (libraryMetadata (if path = "/new" then ⟨2, 0, 0, 0⟩ else ⟨1, 0, 0, 0⟩)))
  isFile _ := true

def versionCatalog : Catalog := ⟨⟨.ofRegistrations [("Lib", "/new"), ("Lib", "/old")], {}⟩, {}⟩

open scoped Image.Container

/-- A relaxed request is given a later candidate, which has the lower version. -/
theorem older_version_given :
    let request : Request := { name := "Lib", version := some ⟨1, 5, 0, 0⟩ }
    let lax : Request := { name := "Lib", version := some ⟨1, 0, 0, 0⟩ }
    ∃ chosen other,
      (resolve ⟨false⟩ versionCatalog versionFiles request true).1 = .ok (some chosen) ∧
      chosen.path = "/new" ∧
      (resolve ⟨false⟩ versionCatalog versionFiles lax true).1 = .ok (some other) ∧
      other.path = "/old" := by
  intro request lax
  have at_path : ∀ {outcome : Except Error (Option Module)} {path : Path},
      outcome.map (Option.map (·.path)) = .ok (some path) →
        ∃ given, outcome = .ok (some given) ∧ given.path = path := by
    intro outcome path same
    match outcome with
    | .ok (some given) =>
      cases same
      exact ⟨given, rfl, rfl⟩
  obtain ⟨chosen, given, newer⟩ := at_path (by decide +kernel :
    (resolve ⟨false⟩ versionCatalog versionFiles request true).1.map (Option.map (·.path)) =
      .ok (some "/new"))
  have relaxes : lax.Relaxes request :=
    ⟨rfl, .inr ⟨_, _, rfl, rfl, .minor rfl (by decide)⟩, .inl rfl⟩
  have law := (relaxing_keeps_match relaxes).2 versionCatalog versionFiles ⟨false⟩
    (Catalog.reachable_run _ [] [])
  obtain ⟨-, other, -, -, -, lax_given, -⟩ := law.1 rfl chosen given
  obtain ⟨same, same_given, older⟩ := at_path (by decide +kernel :
    (resolve ⟨false⟩ versionCatalog versionFiles lax true).1.map (Option.map (·.path)) =
      .ok (some "/old"))
  cases lax_given.symm.trans same_given
  exact ⟨chosen, other, given, newer, lax_given, older⟩

end Resolver

end Managed
