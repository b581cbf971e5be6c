import DispatcharrPvr.TimeshiftBuffer.BufferState
import DispatcharrPvr.TimeshiftBuffer.UrlText

/-!
# TimeshiftBuffer.FileServer

The HTTP server that hands out a buffer's playlist and segments
(`_BufferRequestHandler` of `plugin.py`).  A request's path is taken apart twice,
once for the channel whose token is asked for and once for the file; both lead
to the same directory, so a token reads its own channel's files and its answers
depend on no other's (`fileServer_own_channel`).

The storage is what each resolved path names, without symbolic links; it may
change between the look at the file and its opening.  An answer's effect on the
state of the buffer is no part of the answer.
-/

namespace DispatcharrPvr

namespace TimeshiftBuffer

namespace FileServer

open Cut

/-! ## what a request meets -/

/-- What is at a path. -/
inductive Entry where
  | missing
  | directory (size : Nat)
  | file (content : List UInt8)
  /-- The look at it raises. -/
  | unreadable
deriving DecidableEq, Repr

/-- A resolved path, by its parts. -/
abbrev Path := List Text

/-- What the paths of the storage name. -/
abbrev Storage := Path → Entry

/-- The states of the buffers, as `_get_buffer_state` reads them. -/
structure StoredBuffers (lib : UrlLibrary) where
  /-- An error where the state cannot be read. -/
  get : Text → Except Unit (Option BufferState)
  /-- `_channel_dir` has let the buffer's start through. -/
  isUuid : ∀ channelUuid state, get channelUuid = .ok (some state) → isUuid lib channelUuid = true

/-- A request, as far as it is read. -/
structure FileRequest where
  /-- The path, with its query. -/
  path : Text
  isHead : Bool := false
  range : Option Text := none
deriving DecidableEq, Repr

/-- The answer to a request. -/
inductive Answer where
  | error (status : Nat)
  /-- An exception: the connection is dropped. -/
  | dropped
  | rangeNotSatisfiable (fileSize : Nat)
  | content (status : Nat) (contentType : Text) (contentLength : Nat)
      (contentRange : Option (Nat × Nat × Nat)) (body : List UInt8)
deriving DecidableEq, Repr

/-! ## `_resolve_request_path` -/

/-- `text.strip("/")`. -/
def stripSlashes (text : Text) : Text := stripChars ['/'] text

/-- The parts of a path that `pathlib` keeps. -/
def components (path : Text) : List Text :=
  (path.splitOn '/').filter fun part => part != [] && part != ['.']

/-- `(root / path).resolve()`, for a resolved root and a relative path. -/
def resolve (root : Path) (path : Text) : Path :=
  (components path).foldl (fun resolved part =>
    if part = ['.', '.'] then resolved.dropLast else resolved ++ [part]) root

/-- `_resolve_request_path`: the channel and the file, an error where it raises;
`root` is the resolved storage path. -/
def resolveRequestPath (lib : UrlLibrary) (root : Option Path) (requestPath : Text) :
    Except Unit (Option (Text × Path)) :=
  match urlparse lib requestPath with
  | none => .error ()
  | some url =>
      let raw := unquote url.path
      if '\x00' ∈ raw then .ok none
      else
        let parts := (stripSlashes raw).splitOn '/'
        if ['.', '.'] ∈ parts ∨ parts.length < 2 then .ok none
        else
          match root with
          | none => .ok none
          | some storageRoot =>
              let candidate := resolve storageRoot (raw.dropWhile (· ∈ ['/']))
              if storageRoot.isPrefixOf candidate then .ok (some (parts.headD [], candidate))
              else .ok none

/-! ## `_resolve_and_authorize` -/

/-- The token of a request. -/
def requestToken (lib : UrlLibrary) (requestPath : Text) : Option Text :=
  (urlparse lib requestPath).bind fun url => firstValue "token".toList url.query

/-- `_check_access_token`. -/
def checkAccessToken (lib : UrlLibrary) (buffers : StoredBuffers lib) (requestPath channelUuid : Text) :
    Except Unit Bool :=
  (buffers.get channelUuid).map fun state =>
    match state.bind (·.accessToken) with
    | none => false
    | some expected => expected != [] && requestToken lib requestPath == some expected

/-- `_is_servable_name`. -/
def isServableName (name : Text) : Bool :=
  name == "live.m3u8".toList ||
    ("seg_".toList.isPrefixOf name &&
      match cutFirst ['.'] (name.drop 4) with
      | some (digits, suffix) => digits != [] && digits.all Char.isDigit && suffix == "ts".toList
      | none => false)

/-- `_resolve_and_authorize`: the file to serve, or the answer it sends. -/
def resolveAndAuthorize (lib : UrlLibrary) (buffers : StoredBuffers lib) (root : Option Path)
    (storage : Storage) (requestPath : Text) : Except Answer Path :=
  match resolveRequestPath lib root requestPath with
  | .error _ => .error .dropped
  | .ok none => .error (.error 404)
  | .ok (some (channelUuid, target)) =>
      match checkAccessToken lib buffers requestPath channelUuid with
      | .error _ => .error (.error 503)
      | .ok false => .error (.error 403)
      | .ok true =>
          match storage target with
          | .file _ =>
              if isServableName (target.getLast?.getD []) then .ok target else .error (.error 404)
          | .unreadable => .error .dropped
          | _ => .error (.error 404)

/-! ## `do_GET` and `do_HEAD` -/

/-- `path.suffix`. -/
def suffix (name : Text) : Text :=
  match cutLast '.' name with
  | some (_ :: _, c :: rest) => '.' :: c :: rest
  | _ => []

/-- `_content_type_for`. -/
def contentTypeFor (lib : UrlLibrary) (name : Text) : Text :=
  if suffix name = ".m3u8".toList then "application/vnd.apple.mpegurl".toList
  else if suffix name = ".ts".toList then "video/mp2t".toList
  else ((lib.guessType name).filter (· ≠ [])).getD "application/octet-stream".toList

/-- What `_parse_range` makes of a range. -/
inductive Range where
  /-- None that it can read. -/
  | whole
  | unsatisfiable
  | part (start stop : Nat)
deriving DecidableEq, Repr

/-- Both ends of a range behind `bytes=`, `none` where an `int` raises. -/
def rangeEnds (fileSize : Nat) (spec : Text) : Option (Int × Int) :=
  match cutFirst ['-'] spec with
  | none => none
  | some ([], stop) => (parseInt stop).bind fun suffixLen =>
      if suffixLen ≤ 0 then none else some (max 0 (fileSize - suffixLen), fileSize - 1)
  | some (start, []) => (parseInt start).map fun start => (start, fileSize - 1)
  | some (start, stop) => (parseInt start).bind fun start =>
      (parseInt stop).map fun stop => (start, stop)

/-- `_parse_range`. -/
def parseRange (rangeHeader : Option Text) (fileSize : Nat) : Range :=
  match rangeHeader with
  | none => .whole
  | some header =>
      if "bytes=".toList.isPrefixOf header then
        match rangeEnds fileSize (strip ((header.drop 6).takeWhile (· ≠ ','))) with
        | none => .whole
        | some (start, stop) =>
            if start < 0 ∨ fileSize ≤ start ∨ stop < start then .unsatisfiable
            else .part start.toNat (min stop (fileSize - 1)).toNat
      else .whole

/-- The part of a file that answers a `GET`, by `_plan_range_response`. -/
def serveRange (contentType : Text) (content : List UInt8) : Range → Answer
  | .whole => .content 200 contentType content.length none content
  | .unsatisfiable => .rangeNotSatisfiable content.length
  | .part start stop =>
      .content 206 contentType (stop - start + 1) (some (start, stop, content.length))
        ((content.drop start).take (stop - start + 1))

/-- `do_GET` and `do_HEAD`; the file is opened in `opened`. -/
def respond (lib : UrlLibrary) (buffers : StoredBuffers lib) (root : Option Path)
    (storage opened : Storage) (request : FileRequest) : Answer :=
  match resolveAndAuthorize lib buffers root storage request.path with
  | .error answer => answer
  | .ok target =>
      let contentType := contentTypeFor lib (target.getLast?.getD [])
      match opened target, request.isHead with
      | .file content, false =>
          serveRange contentType content (parseRange request.range content.length)
      | .file content, true => .content 200 contentType content.length none []
      | .directory size, true => .content 200 contentType size none []
      | _, _ => .error 404

/-! ## the two ways to the channel -/

/-- The parts of a path that are not empty. -/
def names (path : Text) : List Text := (path.splitOn '/').filter (· != [])

theorem components_eq (path : Text) :
    components path = (names path).filter (· != ['.']) := by
  simp only [components, names, List.filter_filter]
  exact List.filter_congr fun part _ => Bool.and_comm _ _

theorem names_slash (path : Text) : names ('/' :: path) = names path := by
  have hsplit : ([] ++ '/' :: path).splitOn '/' = [].splitOn '/' ++ path.splitOn '/' :=
    List.splitOn_append_cons_self [] path
  rw [names, ← List.nil_append ('/' :: path), hsplit]
  simp [names]

theorem names_concat_slash (path : Text) : names (path ++ ['/']) = names path := by
  rw [names, List.splitOn_append_cons_self, List.filter_append]
  simp [names]

/-- Slashes around a path name nothing. -/
theorem names_dropWhile (path : Text) : names (path.dropWhile (· ∈ ['/'])) = names path := by
  induction path with
  | nil => rfl
  | cons c path ih =>
      by_cases hc : c = '/'
      · rw [hc, names_slash, ← ih]
        rfl
      · rw [List.dropWhile_cons_of_neg (by simp [hc])]

theorem names_dropWhile_reverse (path : Text) :
    names ((path.dropWhile (· ∈ ['/'])).reverse) = names path.reverse := by
  induction path with
  | nil => rfl
  | cons c path ih =>
      by_cases hc : c = '/'
      · rw [hc, List.reverse_cons, names_concat_slash, ← ih]
        rfl
      · rw [List.dropWhile_cons_of_neg (by simp [hc])]

theorem names_stripSlashes (path : Text) : names (stripSlashes path) = names path := by
  rw [stripSlashes, stripChars, names_dropWhile_reverse, List.reverse_reverse, names_dropWhile]

/-- What is left between slashes does not begin with one. -/
theorem head_stripSlashes {path rest : Text} {c : Char} (h : stripSlashes path = c :: rest) :
    c ≠ '/' := by
  have hprefix : stripSlashes path <+: path.dropWhile (· ∈ ['/']) := by
    have hsuffix := List.dropWhile_suffix (l := (path.dropWhile (· ∈ ['/'])).reverse) (· ∈ ['/'])
    simpa [stripSlashes, stripChars] using List.reverse_prefix.mpr hsuffix
  obtain ⟨after, hafter⟩ := hprefix
  have hhead := head?_dropWhile (p := fun c => decide (c ∈ ['/'])) (s := path) c
  rw [← hafter, h] at hhead
  simpa using hhead rfl

/-- So its first part is a name, if there is another. -/
theorem splitOn_stripSlashes {path first : Text} {rest : List Text}
    (h : (stripSlashes path).splitOn '/' = first :: rest) (hrest : rest ≠ []) : first ≠ [] := by
  cases hstrip : stripSlashes path with
  | nil =>
      rw [hstrip, List.splitOn_nil, List.cons.injEq] at h
      exact absurd h.2.symm hrest
  | cons c text =>
      have hc := head_stripSlashes hstrip
      rw [hstrip, List.splitOn_cons_eq_if_modifyHead, if_neg (by simpa using hc)] at h
      cases hsplit : text.splitOn '/' with
      | nil => exact absurd hsplit (List.splitOn_ne_nil _ _)
      | cons part parts =>
          rw [hsplit, List.modifyHead_cons, List.cons.injEq] at h
          rw [← h.1]
          exact List.cons_ne_nil _ _

/-- Without `..`, a path leads to its parts. -/
theorem resolve_eq {root : Path} {path : Text} (h : ['.', '.'] ∉ components path) :
    resolve root path = root ++ components path := by
  have hfold : ∀ (parts : List Text) (resolved : Path), ['.', '.'] ∉ parts →
      parts.foldl (fun resolved part =>
        if part = ['.', '.'] then resolved.dropLast else resolved ++ [part]) resolved =
          resolved ++ parts := by
    intro parts
    induction parts with
    | nil => simp
    | cons part parts ih =>
        intro resolved hparts
        rw [List.mem_cons, not_or] at hparts
        rw [List.foldl_cons, if_neg (Ne.symm hparts.1), ih _ hparts.2, List.append_assoc]
        rfl
  exact hfold _ _ h

/-- The first part of a path, and where the path leads behind it. -/
theorem resolve_stripSlashes (root : Path) {raw first : Text} {parts : List Text}
    (hsplit : (stripSlashes raw).splitOn '/' = first :: parts) (hparts : parts ≠ [])
    (hdots : ['.', '.'] ∉ first :: parts) :
    (names raw).head? = some first ∧ (first ≠ ['.'] → ∃ rest,
      resolve root (raw.dropWhile (· ∈ ['/'])) = root ++ first :: rest) := by
  have hfirst := splitOn_stripSlashes hsplit hparts
  have hnames : names raw = first :: parts.filter (· != []) := by
    rw [← names_stripSlashes, names, hsplit, List.filter_cons_of_pos (by simpa using hfirst)]
  have hcomponents : components (raw.dropWhile (· ∈ ['/'])) = (names raw).filter (· != ['.']) := by
    rw [components_eq, names_dropWhile]
  refine ⟨by rw [hnames]; rfl, fun hdot => ⟨(parts.filter (· != [])).filter (· != ['.']), ?_⟩⟩
  rw [resolve_eq, hcomponents, hnames, List.filter_cons_of_pos (by simpa using hdot)]
  rw [hcomponents, hnames]
  intro hmem
  rcases List.mem_cons.mp (List.mem_of_mem_filter hmem) with h | h
  · exact hdots (h ▸ List.mem_cons_self)
  · exact hdots (List.mem_cons_of_mem _ (List.mem_of_mem_filter h))

/-- A request's path, decoded. -/
def decodedPath (lib : UrlLibrary) (requestPath : Text) : Option Text :=
  (urlparse lib requestPath).map fun url => unquote url.path

/-- **The two ways agree**: the file is reached through the first name of the
decoded path, which is the channel. -/
theorem resolveRequestPath_spec {lib : UrlLibrary} {root : Option Path}
    {requestPath channelUuid : Text} {target : Path}
    (h : resolveRequestPath lib root requestPath = .ok (some (channelUuid, target))) :
    ∃ storageRoot decoded, root = some storageRoot ∧
      decodedPath lib requestPath = some decoded ∧
      (names decoded).head? = some channelUuid ∧
      (channelUuid ≠ ['.'] → ∃ rest, target = storageRoot ++ channelUuid :: rest) := by
  simp only [resolveRequestPath] at h
  split at h
  · cases h
  · next url hurl =>
      split at h
      · cases h
      · split at h
        · cases h
        · next hparts =>
            rw [not_or, Nat.not_lt] at hparts
            split at h
            · cases h
            · next storageRoot =>
                split at h <;> cases h
                obtain ⟨first, parts, hsplit⟩ :=
                  List.exists_cons_of_length_pos (Nat.lt_of_lt_of_le Nat.two_pos hparts.2)
                have hne : parts ≠ [] := by
                  rintro rfl
                  simp [hsplit] at hparts
                obtain ⟨hhead, htarget⟩ :=
                  resolve_stripSlashes storageRoot hsplit hne (hsplit ▸ hparts.1)
                refine ⟨storageRoot, unquote url.path, rfl, by rw [decodedPath, hurl]; rfl, ?_⟩
                rw [hsplit]
                exact ⟨hhead, htarget⟩

/-! ## what is served -/

/-- The playlist's name or a segment's. -/
def ServableName (name : Text) : Prop :=
  name = "live.m3u8".toList ∨ ∃ digits : Text, digits ≠ [] ∧ (∀ d ∈ digits, d.isDigit = true) ∧
    name = "seg_".toList ++ digits ++ ".ts".toList

theorem servableName_of_isServableName {name : Text} (h : isServableName name = true) :
    ServableName name := by
  rw [isServableName, Bool.or_eq_true, Bool.and_eq_true] at h
  rcases h with h | ⟨hstart, h⟩
  · exact .inl (by simpa using h)
  · obtain ⟨behind, rfl⟩ := List.isPrefixOf_iff_prefix.mp hstart
    split at h
    · next digits ending hcut =>
        simp only [Bool.and_eq_true, bne_iff_ne, beq_iff_eq, List.all_eq_true] at h
        obtain ⟨⟨hne, hdigits⟩, rfl⟩ := h
        refine .inr ⟨digits, hne, hdigits, ?_⟩
        rw [List.append_assoc]
        exact congrArg _ (by simpa using cutFirst_eq_some hcut)
    · contradiction

/-- A servable name has a dot. -/
theorem ServableName.dot {name : Text} (h : ServableName name) : '.' ∈ name := by
  rcases h with rfl | ⟨digits, -, -, rfl⟩
  · decide
  · simp

section Served

variable {lib : UrlLibrary} {buffers : StoredBuffers lib} {root : Option Path}
  {requestPath channelUuid : Text} {target : Path}

theorem checkAccessToken_eq_true (h : checkAccessToken lib buffers requestPath channelUuid = .ok true) :
    ∃ state token, buffers.get channelUuid = .ok (some state) ∧ state.accessToken = some token ∧
      requestToken lib requestPath = some token := by
  rw [checkAccessToken] at h
  cases hget : buffers.get channelUuid with
  | error e => rw [hget] at h; cases h
  | ok found =>
      rw [hget, Except.map] at h
      cases found with
      | none => cases h
      | some state =>
          cases htoken : state.accessToken with
          | none => simp [htoken] at h
          | some token =>
              have hequal : token ≠ [] ∧ requestToken lib requestPath = some token := by
                simpa [htoken] using h
              exact ⟨state, token, rfl, htoken, hequal.2⟩

/-- A channel with a state is no `.`, so that its files are reached through its directory. -/
theorem target_of_state {state : BufferState}
    (h : resolveRequestPath lib root requestPath = .ok (some (channelUuid, target)))
    (hstate : buffers.get channelUuid = .ok (some state)) :
    ∃ storageRoot rest, root = some storageRoot ∧ target = storageRoot ++ channelUuid :: rest := by
  obtain ⟨storageRoot, decoded, hroot, -, -, htarget⟩ := resolveRequestPath_spec h
  obtain ⟨rest, hrest⟩ := htarget fun hdot => by
    have huuid := buffers.isUuid channelUuid state hstate
    rw [hdot, isUuid_of_dot lib (by simp)] at huuid
    contradiction
  exact ⟨storageRoot, rest, hroot, hrest⟩

end Served

/-- What a request shows that is answered with a file. -/
structure Authorized (lib : UrlLibrary) (buffers : StoredBuffers lib) (storageRoot : Path)
    (requestPath channelUuid : Text) (target : Path) : Prop where
  /-- The channel is the first name of the decoded path. -/
  channel : ∃ decoded, decodedPath lib requestPath = some decoded ∧
    (names decoded).head? = some channelUuid
  /-- The file lies in its directory. -/
  inside : ∃ parents name, target = storageRoot ++ channelUuid :: (parents ++ [name]) ∧
    ServableName name
  /-- The token is the channel's. -/
  token : ∃ state token, buffers.get channelUuid = .ok (some state) ∧
    state.accessToken = some token ∧ requestToken lib requestPath = some token

theorem resolveAndAuthorize_eq_ok {lib : UrlLibrary} {buffers : StoredBuffers lib}
    {root : Option Path} {storage : Storage} {requestPath : Text} {target : Path}
    (h : resolveAndAuthorize lib buffers root storage requestPath = .ok target) :
    ∃ channelUuid, resolveRequestPath lib root requestPath = .ok (some (channelUuid, target)) ∧
      checkAccessToken lib buffers requestPath channelUuid = .ok true ∧
      (∃ content, storage target = .file content) ∧
      ServableName (target.getLast?.getD []) := by
  rw [resolveAndAuthorize] at h
  split at h
  · cases h
  · cases h
  · next channelUuid _ hresolve =>
      split at h
      · cases h
      · cases h
      · next haccess =>
          split at h
          · next content hfile =>
              split at h <;> cases h
              next hservable =>
                exact ⟨channelUuid, hresolve, haccess, ⟨content, hfile⟩,
                  servableName_of_isServableName hservable⟩
          · cases h
          · cases h

theorem resolveAndAuthorize_spec {lib : UrlLibrary} {buffers : StoredBuffers lib}
    {root : Option Path} {storage : Storage} {requestPath : Text} {target : Path}
    (h : resolveAndAuthorize lib buffers root storage requestPath = .ok target) :
    (∃ content, storage target = .file content) ∧ ∃ storageRoot channelUuid,
      root = some storageRoot ∧ Authorized lib buffers storageRoot requestPath channelUuid target := by
  obtain ⟨channelUuid, hresolve, haccess, hfile, hname⟩ := resolveAndAuthorize_eq_ok h
  obtain ⟨state, token, hstate, htoken, hrequest⟩ := checkAccessToken_eq_true haccess
  obtain ⟨storageRoot, rest, hroot, htarget⟩ := target_of_state hresolve hstate
  obtain ⟨_, decoded, -, hdecoded, hhead, -⟩ := resolveRequestPath_spec hresolve
  refine ⟨hfile, storageRoot, channelUuid, hroot, ⟨decoded, hdecoded, hhead⟩, ?_,
    state, token, hstate, htoken, hrequest⟩
  rcases List.eq_nil_or_concat rest with rfl | ⟨parents, name, rfl⟩
  · -- the channel's own name is not servable
    rw [htarget, List.getLast?_concat, Option.getD_some] at hname
    have huuid := buffers.isUuid channelUuid state hstate
    rw [isUuid_of_dot lib hname.dot] at huuid
    contradiction
  · rw [List.concat_eq_append] at htarget
    have hlast : target.getLast? = some name := by
      rw [htarget, ← List.cons_append, ← List.append_assoc]
      exact List.getLast?_concat
    exact ⟨parents, name, htarget, by simpa [hlast] using hname⟩

/-! ## the answers -/

namespace Answer

/-- The answer carries a file. -/
def isServed : Answer → Bool
  | content .. => true
  | _ => false

/-- The bytes it carries. -/
def body : Answer → List UInt8
  | content _ _ _ _ body => body
  | _ => []

end Answer

/-- The bytes are part of the file that is opened. -/
def FromFile (opened : Storage) (target : Path) (body : List UInt8) : Prop :=
  body = [] ∨ ∃ content, opened target = .file content ∧ body <:+: content

theorem body_serveRange (contentType : Text) (content : List UInt8) (range : Range) :
    (serveRange contentType content range).body <:+: content := by
  cases range with
  | whole => exact List.infix_rfl
  | unsatisfiable => exact List.nil_infix
  | part start stop =>
      exact (List.take_prefix _ _).isInfix.trans (List.drop_suffix _ _).isInfix

section Answers

variable {lib : UrlLibrary} {buffers : StoredBuffers lib} {root : Option Path}

theorem isServed_of_error {storage : Storage} {requestPath : Text} {answer : Answer}
    (h : resolveAndAuthorize lib buffers root storage requestPath = .error answer) :
    answer.isServed = false := by
  rw [resolveAndAuthorize] at h
  split at h
  · cases h; rfl
  · cases h; rfl
  · split at h
    · cases h; rfl
    · cases h; rfl
    · split at h
      · split at h <;> cases h
        rfl
      · cases h; rfl
      · cases h; rfl

/-- **Only an authorized file is served.** -/
theorem authorized_of_isServed {storage opened : Storage} {request : FileRequest}
    (h : (respond lib buffers root storage opened request).isServed = true) :
    ∃ storageRoot channelUuid target, root = some storageRoot ∧
      Authorized lib buffers storageRoot request.path channelUuid target ∧
      (∃ content, storage target = .file content) ∧
      FromFile opened target (respond lib buffers root storage opened request).body := by
  cases hauthorize : resolveAndAuthorize lib buffers root storage request.path with
  | error answer =>
      rw [respond, hauthorize] at h
      simp [isServed_of_error hauthorize] at h
  | ok target =>
      obtain ⟨hfile, storageRoot, channelUuid, hroot, hauthorized⟩ :=
        resolveAndAuthorize_spec hauthorize
      refine ⟨storageRoot, channelUuid, target, hroot, hauthorized, hfile, ?_⟩
      simp only [respond, hauthorize]
      split
      · next content hopened _ => exact .inr ⟨content, hopened, body_serveRange ..⟩
      · exact .inl rfl
      · exact .inl rfl
      · exact .inl rfl

/-- The token is a channel's, and no other's. -/
structure TokenOf (buffers : StoredBuffers lib) (token channelUuid : Text) : Prop where
  own : ∃ state, buffers.get channelUuid = .ok (some state) ∧ state.accessToken = some token
  only : ∀ other state, buffers.get other = .ok (some state) → state.accessToken = some token →
    other = channelUuid

/-- The storages are the same within a directory. -/
def AgreeWithin (directory : Path) (storage storage' : Storage) : Prop :=
  ∀ path, directory <+: path → storage path = storage' path

/-- What a channel's token is let through to lies in the channel's directory. -/
theorem within_of_access {storageRoot target : Path} {token channelUuid channel requestPath : Text}
    (hroot : root = some storageRoot) (htoken : TokenOf buffers token channelUuid)
    (hrequest : requestToken lib requestPath = some token)
    (hresolve : resolveRequestPath lib root requestPath = .ok (some (channel, target)))
    (haccess : checkAccessToken lib buffers requestPath channel = .ok true) :
    storageRoot ++ [channelUuid] <+: target := by
  obtain ⟨state, own, hstate, hown, hsame⟩ := checkAccessToken_eq_true haccess
  obtain rfl : token = own := Option.some.inj (hrequest.symm.trans hsame)
  obtain rfl := htoken.only channel state hstate hown
  obtain ⟨_, rest, hroot', rfl⟩ := target_of_state hresolve hstate
  obtain rfl := Option.some.inj (hroot.symm.trans hroot')
  exact ⟨rest, by simp⟩

/-- **No other directory matters**: what a channel's token is answered with
depends on the storage within the channel's directory only. -/
theorem respond_eq {storageRoot : Path} {token channelUuid : Text} {request : FileRequest}
    {storage opened storage' opened' : Storage} (hroot : root = some storageRoot)
    (htoken : TokenOf buffers token channelUuid)
    (hrequest : requestToken lib request.path = some token)
    (hstorage : AgreeWithin (storageRoot ++ [channelUuid]) storage storage')
    (hopened : AgreeWithin (storageRoot ++ [channelUuid]) opened opened') :
    respond lib buffers root storage opened request =
      respond lib buffers root storage' opened' request := by
  have hauthorize : resolveAndAuthorize lib buffers root storage request.path =
      resolveAndAuthorize lib buffers root storage' request.path := by
    rw [resolveAndAuthorize, resolveAndAuthorize]
    split
    · rfl
    · rfl
    · next channel target hresolve =>
        split
        · rfl
        · rfl
        · next haccess =>
            rw [hstorage target (within_of_access hroot htoken hrequest hresolve haccess)]
  rw [respond, respond, hauthorize]
  split
  · rfl
  · next target htarget =>
      obtain ⟨channel, hresolve, haccess, -, -⟩ := resolveAndAuthorize_eq_ok htarget
      rw [hopened target (within_of_access hroot htoken hrequest hresolve haccess)]

end Answers

/-- **The file server serves only the token's own channel**: a file is served
only inside the directory of the channel that the decoded path names first,
under a servable name and for that channel's token; and a request with a token
of one channel is answered from that channel's directory, whatever is in the
others. -/
theorem fileServer_own_channel (lib : UrlLibrary) (buffers : StoredBuffers lib)
    (root : Option Path) (request : FileRequest) :
    (∀ storage opened, (respond lib buffers root storage opened request).isServed = true →
      ∃ storageRoot channelUuid target, root = some storageRoot ∧
        Authorized lib buffers storageRoot request.path channelUuid target ∧
        (∃ content, storage target = .file content) ∧
        FromFile opened target (respond lib buffers root storage opened request).body) ∧
    ∀ storageRoot token channelUuid, root = some storageRoot → TokenOf buffers token channelUuid →
      requestToken lib request.path = some token →
      (∀ storage opened, (respond lib buffers root storage opened request).isServed = true →
        ∃ target, storageRoot ++ [channelUuid] <+: target ∧
          FromFile opened target (respond lib buffers root storage opened request).body) ∧
      ∀ storage opened storage' opened',
        AgreeWithin (storageRoot ++ [channelUuid]) storage storage' →
        AgreeWithin (storageRoot ++ [channelUuid]) opened opened' →
        respond lib buffers root storage opened request =
          respond lib buffers root storage' opened' request := by
  refine ⟨fun storage opened h => authorized_of_isServed h, ?_⟩
  intro storageRoot token channelUuid hroot htoken hrequest
  refine ⟨fun storage opened h => ?_, fun storage opened storage' opened' hstorage hopened =>
    respond_eq hroot htoken hrequest hstorage hopened⟩
  obtain ⟨root', channel, target, hroot', hauthorized, -, hbody⟩ := authorized_of_isServed h
  obtain rfl := Option.some.inj (hroot.symm.trans hroot')
  obtain ⟨state, own, hstate, hown, hsame⟩ := hauthorized.token
  obtain rfl : token = own := Option.some.inj (hrequest.symm.trans hsame)
  obtain rfl := htoken.only channel state hstate hown
  obtain ⟨parents, name, rfl, -⟩ := hauthorized.inside
  exact ⟨_, ⟨parents ++ [name], by simp⟩, hbody⟩

/-! ## a request with odd slashes, dots and escapes -/

/-- No network location is refused, and no digit is known beyond ASCII. -/
def plainLibrary : UrlLibrary where
  netlocAllowed _ := true
  isDecimal _ := false
  guessType _ := none

/-- The channel of the ones, and the channel of the twos. -/
def ones : Text := "11111111-1111-1111-1111-111111111111".toList

@[inherit_doc ones]
def twos : Text := "22222222-2222-2222-2222-222222222222".toList

/-- A channel's state. -/
def stateOf (channelUuid : Text) (token : String) : BufferState where
  channelUuid
  pid := 41
  pidStartTicks := 1
  startedAt := 0
  lastHeartbeat := 0
  storagePath := "/data".toList
  httpPort := 9192
  accessToken := some token.toList

/-- Both channels have a buffer. -/
def twoBuffers : StoredBuffers plainLibrary where
  get channelUuid :=
    if channelUuid = ones then .ok (some (stateOf ones "one"))
    else if channelUuid = twos then .ok (some (stateOf twos "two"))
    else .ok none
  isUuid channelUuid state h := by
    split at h
    · next hones => rw [hones]; decide
    · split at h
      · next htwos => rw [htwos]; decide
      · cases h

/-- A segment of each channel. -/
def twoSegments (second : List UInt8) : Storage := fun path =>
  if path = ["data".toList, ones, "seg_00007.ts".toList] then .file [1, 2, 3]
  else if path = ["data".toList, twos, "seg_00007.ts".toList] then .file second
  else .missing

/-- The first channel's segment, from its second byte on. -/
def oddRequest : FileRequest where
  path := "/11111111-1111-1111-1111-11111111111%31//./seg_00007.ts;v=1?x=1&token=%6Fne".toList
  range := some "bytes=1-".toList

theorem fileServer_own_channel_odd :
    (∃ target, ["data".toList] ++ [ones] <+: target ∧
      FromFile (twoSegments [4]) target [2, 3]) ∧
    respond plainLibrary twoBuffers (some ["data".toList]) (twoSegments [4]) (twoSegments [4])
        oddRequest =
      respond plainLibrary twoBuffers (some ["data".toList]) (twoSegments [5]) (twoSegments [])
        oddRequest := by
  have htoken : TokenOf twoBuffers "one".toList ones := by
    refine ⟨⟨stateOf ones "one", rfl, rfl⟩, fun other state hget hown => ?_⟩
    simp only [twoBuffers] at hget
    split at hget
    · next hones => exact hones
    · split at hget <;> cases hget
      exact absurd hown (by decide)
  have hagree : ∀ second, AgreeWithin (["data".toList] ++ [ones]) (twoSegments [4])
      (twoSegments second) := by
    rintro second path ⟨rest, rfl⟩
    have htwos : ["data".toList] ++ [ones] ++ rest ≠
        ["data".toList, twos, "seg_00007.ts".toList] := fun h => by
      have hsecond : some ones = some twos := congrArg (·[1]?) h
      exact absurd hsecond (by decide)
    simp only [twoSegments, htwos, if_false]
  have hserved : respond plainLibrary twoBuffers (some ["data".toList]) (twoSegments [4])
      (twoSegments [4]) oddRequest =
        .content 206 "video/mp2t".toList 2 (some (1, 2, 3)) [2, 3] := by decide +kernel
  obtain ⟨hwithin, hsame⟩ :=
    (fileServer_own_channel plainLibrary twoBuffers (some ["data".toList]) oddRequest).2
      ["data".toList] "one".toList ones rfl htoken (by decide)
  refine ⟨?_, hsame _ _ _ _ (hagree [5]) (hagree [])⟩
  have hbody := hwithin (twoSegments [4]) (twoSegments [4]) (by rw [hserved]; rfl)
  rwa [hserved] at hbody

end FileServer

end TimeshiftBuffer

end DispatcharrPvr
