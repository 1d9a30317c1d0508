import GitE2EE.Model.Url

/-!
# A storage URL and the carrier it names

`StorageUrl.parse` takes the fragment off an address, makes the path absolute and puts the
fragment back; `parseCarrierLocation` splits the result again. Both split at the last `#`.
They agree whenever the address has a `#` of its own. An address without one becomes the
current directory and the path, and there a `#` of the directory's name is the last one.
-/

namespace GitE2EE

open Wire Effect Split

/-! ## Absolute paths -/

/-- Pushing a component adds a slash and the component. -/
theorem mem_pushComponent {b : UInt8} {base component : Text}
    (h : b ∈ pushComponent base component) : b ∈ base ∨ b = 47 ∨ b ∈ component := by
  unfold pushComponent at h
  split at h
  · rcases List.mem_append.mp h with h | h
    · exact .inl h
    · exact .inr (.inr h)
  · rcases List.mem_append.mp h with h | h
    · exact .inl h
    · exact .inr (List.mem_cons.mp h)

theorem prefix_pushComponent (base component : Text) : base <+: pushComponent base component := by
  unfold pushComponent
  split
  · exact List.prefix_append _ _
  · exact List.prefix_append _ _

theorem prefix_foldl_pushComponent (parts : List Text) : ∀ base : Text,
    base <+: parts.foldl pushComponent base := by
  induction parts with
  | nil => exact fun base => List.prefix_refl base
  | cons part parts ih => exact fun base => (prefix_pushComponent base part).trans (ih _)

/-- So does pushing several. -/
theorem mem_foldl_pushComponent {b : UInt8} (parts : List Text) : ∀ base : Text,
    b ∈ parts.foldl pushComponent base → b ∈ base ∨ b = 47 ∨ ∃ part ∈ parts, b ∈ part := by
  induction parts with
  | nil => exact fun base h => .inl h
  | cons part parts ih =>
    intro base h
    rcases ih _ h with h | h | ⟨part', hpart, h⟩
    · rcases mem_pushComponent h with h | h | h
      · exact .inl h
      · exact .inr (.inl h)
      · exact .inr (.inr ⟨part, List.mem_cons_self, h⟩)
    · exact .inr (.inl h)
    · exact .inr (.inr ⟨part', List.mem_cons_of_mem _ hpart, h⟩)

variable {dir : WorkingDirectory}

/-- A relative path made absolute begins with the current directory. -/
theorem prefix_absolutePath {path : Text} (h : isRelative path = true) :
    dir.path <+: absolutePath dir path := by
  have hbase : pathBase dir path = dir.path := by rw [pathBase, if_pos h]
  have hjoined := prefix_foldl_pushComponent (pathComponents path) (pathBase dir path)
  rw [hbase] at hjoined
  unfold absolutePath
  dsimp only
  split
  · rw [hbase]
    exact hjoined.trans (prefix_pushComponent _ _)
  · rw [hbase]
    exact hjoined

/-- And adds nothing to it but slashes and what the path consists of. -/
theorem mem_absolutePath {path : Text} {b : UInt8} (h : isRelative path = true)
    (hb : b ∈ absolutePath dir path) : b ∈ dir.path ∨ b = 47 ∨ b ∈ path := by
  have hbase : pathBase dir path = dir.path := by rw [pathBase, if_pos h]
  have hjoined : b ∈ (pathComponents path).foldl pushComponent (pathBase dir path) →
      b ∈ dir.path ∨ b = 47 ∨ b ∈ path := by
    intro hb
    rw [hbase] at hb
    rcases mem_foldl_pushComponent _ _ hb with hb | hb | ⟨part, hpart, hb⟩
    · exact .inl hb
    · exact .inr (.inl hb)
    · have hall : ∀ part ∈ components path, ∀ b ∈ part, b ∈ path :=
        (forall_mem_splitOn path).mpr fun b hb _ => hb
      exact .inr (.inr (hall part (List.mem_filter.mp hpart).1 b hb))
  unfold absolutePath at hb
  dsimp only at hb
  split at hb
  · rcases mem_pushComponent hb with hb | hb | hb
    · exact hjoined hb
    · exact .inr (.inl hb)
    · cases hb
  · exact hjoined hb

/-- An absolute path begins with a slash. -/
theorem absolutePath_rooted {path : Text} (h : isRelative path = true) :
    (absolutePath dir path).head? = some 47 := by
  obtain ⟨rest, hrest⟩ := @prefix_absolutePath dir path h
  rw [← hrest]
  cases hpath : dir.path with
  | nil => exact absurd dir.rooted (by rw [hpath]; decide)
  | cons b tail =>
    have := dir.rooted
    rw [hpath] at this
    exact this

theorem ne_nil_of_rooted {path : Text} (h : path.head? = some 47) : path ≠ [] := by
  intro hnil
  rw [hnil] at h
  cases h

/-! ## Locations -/

/-- What `parseCarrierLocation` asks of the two halves. -/
def CarrierParts (remote branch : Text) : Prop :=
  remote ≠ [] ∧ branch ≠ [] ∧ isValidRefName (text "refs/heads/" ++ branch) = true
    ∧ branch.head? ≠ some 45

/-- The last `#` separates the remote from the branch, and both are checked. -/
theorem parseCarrierLocation_eq_ok {location remote branch : Text} :
    parseCarrierLocation location = .ok (remote, branch) ↔
      (rsplitOnce 35 location).getD (location, CARRIER_DEFAULT_BRANCH) = (remote, branch)
        ∧ CarrierParts remote branch := by
  unfold parseCarrierLocation CarrierParts
  generalize (rsplitOnce 35 location).getD (location, CARRIER_DEFAULT_BRANCH) = parts
  obtain ⟨remote', branch'⟩ := parts
  simp only [except_bind_eq_ok, bailIf_eq_ok, not_or, Bool.not_eq_false]
  constructor
  · rintro ⟨_, hremote, _, hbranch, _, hvalid, h⟩
    cases h
    exact ⟨rfl, hremote, hbranch, hvalid.1, hvalid.2⟩
  · rintro ⟨heq, hremote, hbranch, hvalid, hdash⟩
    cases heq
    exact ⟨(), hremote, (), hbranch, (), ⟨hvalid, hdash⟩, rfl⟩

theorem getD_rsplitOnce_of_not_mem {location : Text} (h : 35 ∉ location) :
    (rsplitOnce 35 location).getD (location, CARRIER_DEFAULT_BRANCH)
      = (location, CARRIER_DEFAULT_BRANCH) := by
  rw [rsplitOnce_eq_none.mpr h]
  rfl

theorem getD_rsplitOnce_append {remote branch : Text} (h : 35 ∉ branch) :
    (rsplitOnce 35 (remote ++ 35 :: branch)).getD (remote ++ 35 :: branch, CARRIER_DEFAULT_BRANCH)
      = (remote, branch) := by
  rw [rsplitOnce_eq_some.mpr ⟨rfl, h⟩]
  rfl

/-- A location with a `#` is never its own remote. -/
theorem parseCarrierLocation_ne {location branch : Text} (h : 35 ∈ location) :
    parseCarrierLocation location ≠ .ok (location, branch) := by
  intro hparse
  obtain ⟨hsplit, -⟩ := parseCarrierLocation_eq_ok.mp hparse
  cases hr : rsplitOnce 35 location with
  | none => exact rsplitOnce_eq_none.mp hr h
  | some parts =>
    obtain ⟨left, right⟩ := parts
    rw [hr] at hsplit
    obtain ⟨hlocation, -⟩ := rsplitOnce_eq_some.mp hr
    have hleft : left = location := (Prod.mk.inj hsplit).1
    -- the remote would have to be shorter than itself
    have hlength := congrArg List.length hlocation
    rw [hleft, List.length_append, List.length_cons] at hlength
    omega

/-! ## URLs -/

theorem stripPrefix_append (start t : Text) : stripPrefix start (start ++ t) = some t := by
  have h : start.isPrefixOf (start ++ t) = true :=
    List.isPrefixOf_iff_prefix.mpr (List.prefix_append _ _)
  rw [stripPrefix, if_pos h, List.drop_left]

/-- The displayed form has the remote as its address. -/
theorem urlAddress_display (remote : Text) :
    urlAddress (StorageUrl.git remote).display = remote := by
  rw [StorageUrl.display, urlAddress, stripPrefix_append]
  rfl

/-- A path of a carrier, made absolute if it is relative and exists. -/
def resolvedRemote (dir : WorkingDirectory) (path : Text) : Text :=
  if isRelative path ∧ dir.pathExists path then absolutePath dir path else path

/-- How a URL came to name a Git carrier. -/
theorem parse_git {url s : Text} (h : StorageUrl.parse dir url = .ok (.git s)) :
    stripPrefix (text "dir:") (urlAddress url) = none ∧ urlAddress url ≠ []
      ∧ (let split := splitFragment (urlAddress url)
        if isRelative split.1 ∧ dir.pathExists split.1 then
          s = withFragment (absolutePath dir split.1) split.2
        else s = urlAddress url) := by
  unfold StorageUrl.parse at h
  cases hdir : stripPrefix (text "dir:") (urlAddress url) with
  | some path =>
    rw [hdir] at h
    simp only [except_bind_eq_ok] at h
    obtain ⟨_, -, _, -, h⟩ := h
    cases h
  | none =>
    rw [hdir] at h
    simp only [StorageUrl.parseGit, except_bind_eq_ok, bailIf_eq_ok] at h
    obtain ⟨_, hne, h⟩ := h
    refine ⟨rfl, hne, ?_⟩
    dsimp only
    split at h
    · rename_i hlocal
      rw [if_pos hlocal]
      simp only [except_bind_eq_ok] at h
      obtain ⟨path, habsolute, h⟩ := h
      cases h
      unfold absolute at habsolute
      split at habsolute
      · cases habsolute
      · cases habsolute
        rfl
    · rename_i hlocal
      rw [if_neg hlocal]
      cases h
      rfl

/-- An address that is no local path is taken as it stands. -/
theorem parseGit_unresolved {address : Text} (hne : address ≠ [])
    (h : ¬ (isRelative (splitFragment address).1 = true
      ∧ dir.pathExists (splitFragment address).1 = true)) :
    StorageUrl.parseGit dir address = .ok (.git address) := by
  simp only [StorageUrl.parseGit, except_bind_eq_ok, bailIf_eq_ok]
  exact ⟨(), hne, if_neg h⟩

/-- The path of an address that begins with a slash does so too. -/
theorem splitFragment_rooted {address : Text} (h : address.head? = some 47) :
    isRelative (splitFragment address).1 = false := by
  have hrooted : (splitFragment address).1.head? = some 47 := by
    unfold splitFragment
    cases hr : rsplitOnce 35 address with
    | none => exact h
    | some parts =>
      obtain ⟨left, right⟩ := parts
      obtain ⟨rfl, -⟩ := rsplitOnce_eq_some.mp hr
      cases left with
      | nil => cases h
      | cons b left => exact h
  rw [isRelative, hrooted]
  rfl

/-- A fragment is put behind the path. -/
theorem withFragment_rooted {path : Text} (h : path.head? = some 47) (fragment : Option Text) :
    (withFragment path fragment).head? = some 47 := by
  cases fragment with
  | none => exact h
  | some branch =>
    cases path with
    | nil => cases h
    | cons b path => exact h

theorem stripPrefix_dir_rooted {t : Text} (h : t.head? = some 47) :
    stripPrefix (text "dir:") t = none := by
  cases t with
  | nil => cases h
  | cons b t =>
    cases h
    rfl

/-- **Reading back** the displayed form of a carrier changes nothing. -/
theorem parse_display {url s : Text} (h : StorageUrl.parse dir url = .ok (.git s)) :
    StorageUrl.parse dir (StorageUrl.git s).display = .ok (.git s) := by
  obtain ⟨hdir, hne, hresolved⟩ := parse_git h
  dsimp only at hresolved
  rw [StorageUrl.parse, urlAddress_display]
  by_cases hlocal : isRelative (splitFragment (urlAddress url)).1 = true
      ∧ dir.pathExists (splitFragment (urlAddress url)).1 = true
  · -- what was made absolute is not made absolute again
    rw [if_pos hlocal] at hresolved
    have hrooted : s.head? = some 47 := by
      rw [hresolved]
      exact withFragment_rooted (absolutePath_rooted hlocal.1) _
    rw [stripPrefix_dir_rooted hrooted]
    refine parseGit_unresolved (ne_nil_of_rooted hrooted) fun hno => ?_
    rw [splitFragment_rooted hrooted] at hno
    cases hno.1
  · rw [if_neg hlocal] at hresolved
    subst hresolved
    rw [hdir]
    exact parseGit_unresolved hne hlocal

/-- The carrier a URL is stored as: the same branch of the resolved remote, also when the
displayed form is read again. -/
def SameCarrier (dir : WorkingDirectory) (remote branch s : Text) : Prop :=
  parseCarrierLocation s = .ok (resolvedRemote dir remote, branch)
    ∧ StorageUrl.parse dir (StorageUrl.git s).display = .ok (.git s)

/-- **Making a URL absolute keeps its carrier** unless it takes a `#` from the name of the
current directory. -/
theorem storage_url_carrier_iff {url remote branch s : Text}
    (hlocation : parseCarrierLocation (urlAddress url) = .ok (remote, branch))
    (hparse : StorageUrl.parse dir url = .ok (.git s)) :
    SameCarrier dir remote branch s ↔
      35 ∈ urlAddress url ∨ isRelative remote = false ∨ dir.pathExists remote = false
        ∨ 35 ∉ dir.path := by
  obtain ⟨hsplit, hparts⟩ := parseCarrierLocation_eq_ok.mp hlocation
  obtain ⟨-, -, hresolved⟩ := parse_git hparse
  dsimp only at hresolved
  have hreread := parse_display hparse
  unfold SameCarrier resolvedRemote
  rw [and_iff_left hreread]
  cases hr : rsplitOnce 35 (urlAddress url) with
  | none =>
    have hnot := rsplitOnce_eq_none.mp hr
    rw [splitFragment, hr] at hresolved
    rw [hr] at hsplit
    cases hsplit
    dsimp only [withFragment] at hresolved
    by_cases hlocal : isRelative (urlAddress url) = true ∧ dir.pathExists (urlAddress url) = true
    · rw [if_pos hlocal] at hresolved ⊢
      subst hresolved
      by_cases hdir : 35 ∈ dir.path
      · -- the last `#` is the directory's
        have hmem : 35 ∈ absolutePath dir (urlAddress url) :=
          (prefix_absolutePath hlocal.1).mem hdir
        simp [parseCarrierLocation_ne hmem, hnot, hlocal, hdir]
      · have hmem : 35 ∉ absolutePath dir (urlAddress url) := by
          intro h
          rcases mem_absolutePath hlocal.1 h with h | h | h
          · exact hdir h
          · cases h
          · exact hnot h
        refine iff_of_true (parseCarrierLocation_eq_ok.mpr
          ⟨getD_rsplitOnce_of_not_mem hmem, ne_nil_of_rooted (absolutePath_rooted hlocal.1),
            hparts.2⟩) ?_
        exact .inr (.inr (.inr hdir))
    · rw [if_neg hlocal] at hresolved ⊢
      subst hresolved
      refine iff_of_true hlocation ?_
      by_cases hrelative : isRelative (urlAddress url) = true
      · exact .inr (.inr (.inl (Bool.eq_false_iff.mpr fun h => hlocal ⟨hrelative, h⟩)))
      · exact .inr (.inl (Bool.eq_false_iff.mpr hrelative))
  -- the address has its own `#`, which stays the last one
  | some parts =>
    obtain ⟨path, fragment⟩ := parts
    obtain ⟨haddress, hfragment⟩ := rsplitOnce_eq_some.mp hr
    have hmem : 35 ∈ urlAddress url := by
      rw [haddress]
      exact List.mem_append_right _ List.mem_cons_self
    rw [splitFragment, hr] at hresolved
    rw [hr] at hsplit
    cases hsplit
    dsimp only [withFragment] at hresolved
    refine iff_of_true ?_ (.inl hmem)
    by_cases hlocal : isRelative remote = true ∧ dir.pathExists remote = true
    · rw [if_pos hlocal] at hresolved ⊢
      subst hresolved
      exact parseCarrierLocation_eq_ok.mpr ⟨getD_rsplitOnce_append hfragment,
        ne_nil_of_rooted (absolutePath_rooted hlocal.1), hparts.2⟩
    · rw [if_neg hlocal] at hresolved ⊢
      subst hresolved
      exact hlocation

/-- A working directory in which everything exists. -/
def WorkingDirectory.holding (path : Text) (rooted : path.head? = some 47) : WorkingDirectory :=
  ⟨path, fun _ => true, rooted⟩

/-- A URL with a `#` of its own keeps its carrier. -/
theorem storage_url_carrier_vault :
    parseCarrierLocation (urlAddress (text "e2ee::carrier.git#vault"))
        = .ok (text "carrier.git", text "vault")
      ∧ SameCarrier (.holding (text "/srv") rfl) (text "carrier.git") (text "vault")
        (text "/srv/carrier.git#vault") := by
  have hlocation : parseCarrierLocation (urlAddress (text "e2ee::carrier.git#vault"))
      = .ok (text "carrier.git", text "vault") := by decide
  have hparse : StorageUrl.parse (.holding (text "/srv") rfl) (text "e2ee::carrier.git#vault")
      = .ok (.git (text "/srv/carrier.git#vault")) := by decide
  exact ⟨hlocation, (storage_url_carrier_iff hlocation hparse).mpr (.inl (by decide))⟩

/-- Run from `/home/u/c#proj`, the relative URL of a carrier there is stored as the
branch `proj/carrier` of another remote. -/
theorem storage_url_takes_directory_branch :
    parseCarrierLocation (urlAddress (text "e2ee::carrier")) = .ok (text "carrier", text "main")
      ∧ StorageUrl.parse (.holding (text "/home/u/c#proj") rfl) (text "e2ee::carrier")
        = .ok (.git (text "/home/u/c#proj/carrier"))
      ∧ parseCarrierLocation (text "/home/u/c#proj/carrier")
        = .ok (text "/home/u/c", text "proj/carrier")
      ∧ ¬ SameCarrier (.holding (text "/home/u/c#proj") rfl) (text "carrier") (text "main")
        (text "/home/u/c#proj/carrier") := by
  have hsplit : parseCarrierLocation (text "/home/u/c#proj/carrier")
      = .ok (text "/home/u/c", text "proj/carrier") := by decide
  refine ⟨by decide, by decide, hsplit, fun h => ?_⟩
  have hbranch := (Prod.mk.inj (Except.ok.inj (hsplit.symm.trans h.1))).2
  exact absurd hbranch (by decide)

end GitE2EE
