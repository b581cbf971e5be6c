import DispatcharrPvr.TimeshiftBuffer.FileServer

/-!
# TimeshiftBuffer.SegmentRequest

The requests that the add-on makes of the file server: a route with the channel
and a file, and a query with the token and the viewer.  Nothing in them is
encoded, so that each part is read back as it was written
(`resolveRequestPath_segment`, `requestToken_segment`).
-/

namespace DispatcharrPvr

namespace TimeshiftBuffer

namespace FileServer

open Cut

/-! ## plain text -/

/-- Letters, digits, dashes and underscores. -/
def isPlainChar (c : Char) : Bool := c.isAlphanum || c == '-' || c == '_'

/-- What a route and a query keep as it is. -/
structure IsPlain (text : Text) : Prop where
  some : text ≠ []
  chars : ∀ c ∈ text, isPlainChar c = true

/-- The characters of a request that is not encoded. -/
def isRequestChar (c : Char) : Bool :=
  isPlainChar c || c == '.' || c == '/' || c == '?' || c == '=' || c == '&'

theorem isAlphanum_ascii {c : Char} (h : c.isAlphanum = true) : c.val < 0x80 := by
  have hcases : ((decide (65 ≤ c.val ∧ c.val ≤ 90) || (decide (97 ≤ c.val) && decide (c.val ≤ 122)))
      || (decide (48 ≤ c.val) && decide (c.val ≤ 57))) = true := h
  simp only [Bool.or_eq_true, Bool.and_eq_true, decide_eq_true_eq,
    UInt32.le_iff_toNat_le] at hcases
  rw [UInt32.lt_iff_toNat_lt]
  simp only [UInt32.reduceToNat] at hcases ⊢
  omega

/-- A character that is none of them is none of a request. -/
theorem ne_of_isRequestChar {c d : Char} (h : isRequestChar c = true)
    (hd : isRequestChar d = false) : c ≠ d := by
  rintro rfl
  rw [hd] at h
  contradiction

theorem isRequestChar_of_isPlainChar {c : Char} (h : isPlainChar c = true) :
    isRequestChar c = true := by
  simp [isRequestChar, h]

theorem IsPlain.notMem {text : Text} (h : IsPlain text) {d : Char} (hd : isPlainChar d = false) :
    d ∉ text := by
  intro hmem
  rw [h.chars d hmem] at hd
  contradiction

theorem isRequestChar_ascii {c : Char} (h : isRequestChar c = true) : c.val < 0x80 := by
  simp only [isRequestChar, isPlainChar, Bool.or_eq_true, beq_iff_eq] at h
  rcases h with ((((((h | rfl) | rfl) | rfl) | rfl) | rfl) | rfl) | rfl
  · exact isAlphanum_ascii h
  all_goals decide

/-! ## `unquote` -/

/-- ASCII is decoded as it is. -/
theorem decodeFrom_ascii {text : Text} (h : ∀ c ∈ text, c.val < 0x80) :
    decodeFrom 0 (text.map fun c => c.toNat.toUInt8) = text := by
  induction text with
  | nil => rfl
  | cons c text ih =>
      have hc : c.toNat < 128 := by
        have hlt := h c List.mem_cons_self
        rw [UInt32.lt_iff_toNat_lt] at hlt
        exact hlt
      have hbyte : c.toNat.toUInt8.toNat = c.toNat := by
        rw [Nat.toUInt8, UInt8.toNat_ofNat']
        omega
      have hlead : c.toNat.toUInt8 < 0x80 := by
        rw [UInt8.lt_iff_toNat_lt, hbyte]
        exact hc
      have hnone : announced c.toNat.toUInt8 = some 0 := if_pos hlead
      have hdecode : ∀ rest, decodeChar c.toNat.toUInt8 rest = (c, 0) := by
        intro rest
        have hbits : (announcedBytes (secondBytes c.toNat.toUInt8) 0 rest).foldl
            (fun value b => value * 64 + b.toNat % 64) c.toNat.toUInt8.toNat = c.toNat := hbyte
        unfold decodeChar
        rw [hnone]
        dsimp only
        rw [if_pos rfl, hbits, Char.ofNat_toNat]
        rfl
      rw [List.map_cons, decodeFrom, hdecode, ih fun c hmem => h c (List.mem_cons_of_mem _ hmem)]

theorem unquoteToBytes_plain {text : Text} (h : '%' ∉ text) :
    unquoteToBytes text = text.map fun c => c.toNat.toUInt8 := by
  induction text with
  | nil => rfl
  | cons c text ih =>
      rw [List.mem_cons, not_or] at h
      rw [unquoteToBytes, ih h.2, List.map_cons]
      exact fun high low rest hpercent _ => h.1 hpercent.symm

/-- Text without a percent sign is unquoted as it is. -/
theorem unquote_plain {text : Text} (h : ∀ c ∈ text, isRequestChar c = true) :
    unquote text = text := by
  have hascii : ∀ text' run : Text, (∀ c ∈ text', c.val < 0x80) →
      unquoteFrom run text' = decodeFrom 0 (unquoteToBytes (run ++ text')) := by
    intro text' run hall
    induction text' generalizing run with
    | nil => rw [unquoteFrom, List.append_nil]
    | cons c rest ih =>
        rw [unquoteFrom, if_pos (hall c List.mem_cons_self),
          ih (run ++ [c]) fun c hmem => hall c (List.mem_cons_of_mem _ hmem), ← List.append_cons]
  have hpercent : '%' ∉ text := fun hmem => ne_of_isRequestChar (h '%' hmem) (by decide) rfl
  have hall : ∀ c ∈ text, c.val < 0x80 := fun c hmem => isRequestChar_ascii (h c hmem)
  rw [unquote, hascii text [] hall, List.nil_append, unquoteToBytes_plain hpercent,
    decodeFrom_ascii hall]

/-! ## the parts of a request -/

/-- A channel's file in a URL. -/
def segmentRoute (channelUuid name : Text) : Text := '/' :: channelUuid ++ '/' :: name

/-- The query of a read, without its question mark. -/
def segmentQuery (token viewerId : Text) : Text :=
  "token=".toList ++ token ++ if viewerId = [] then [] else "&viewer_id=".toList ++ viewerId

theorem segmentQuery_eq (token viewerId : Text) : segmentQuery token viewerId =
    "token=".toList ++ token ++ if viewerId = [] then [] else "&viewer_id=".toList ++ viewerId := rfl

/-- What a request for a file of a channel is made of. -/
structure IsSegmentRequest (channelUuid name token viewerId : Text) : Prop where
  channel : IsPlain channelUuid
  name : isServableName name = true
  token : IsPlain token
  viewer : viewerId = [] ∨ IsPlain viewerId

section Request

variable {lib : UrlLibrary} {channelUuid name token viewerId : Text}

theorem ServableName.chars (h : ServableName name) :
    name ≠ [] ∧ ∀ c ∈ name, isPlainChar c = true ∨ c = '.' := by
  have hliterals : ("live.m3u8".toList ++ "seg_".toList ++ ".ts".toList).all
      (fun c => isPlainChar c || c == '.') = true := by decide
  have hliteral : ∀ c ∈ "live.m3u8".toList ++ "seg_".toList ++ ".ts".toList,
      isPlainChar c = true ∨ c = '.' := fun c hmem => by
    simpa only [Bool.or_eq_true, beq_iff_eq] using List.all_eq_true.mp hliterals c hmem
  rcases h with rfl | ⟨digits, -, hdigits, rfl⟩
  · exact ⟨by decide, fun c hmem =>
      hliteral c (List.mem_append_left _ (List.mem_append_left _ hmem))⟩
  · refine ⟨by simp, fun c hmem => ?_⟩
    simp only [List.mem_append] at hmem
    rcases hmem with (hmem | hmem) | hmem
    · exact hliteral c (List.mem_append_left _ (List.mem_append_right _ hmem))
    · refine .inl ?_
      simp [isPlainChar, Char.isAlphanum, hdigits c hmem]
    · exact hliteral c (List.mem_append_right _ hmem)

/-- A servable name is no step in a path. -/
theorem ServableName.no_step (h : ServableName name) : name ≠ ['.'] ∧ name ≠ ['.', '.'] := by
  rcases h with rfl | ⟨digits, -, -, rfl⟩
  · decide
  · simp

namespace IsSegmentRequest

variable (h : IsSegmentRequest channelUuid name token viewerId)

include h

theorem servable : ServableName name := servableName_of_isServableName h.name

theorem name_notMem {d : Char} (hd : isPlainChar d = false) (hdot : d ≠ '.') : d ∉ name := by
  intro hmem
  rcases h.servable.chars.2 d hmem with hplain | rfl
  · rw [hd] at hplain
    contradiction
  · exact hdot rfl

theorem route_chars : ∀ c ∈ segmentRoute channelUuid name,
    isPlainChar c = true ∨ c = '.' ∨ c = '/' := by
  intro c hmem
  simp only [segmentRoute, List.mem_append, List.mem_cons] at hmem
  rcases hmem with (rfl | hmem) | rfl | hmem
  · exact .inr (.inr rfl)
  · exact .inl (h.channel.chars c hmem)
  · exact .inr (.inr rfl)
  · exact (h.servable.chars.2 c hmem).imp_right .inl

theorem query_chars : ∀ c ∈ segmentQuery token viewerId,
    isPlainChar c = true ∨ c = '=' ∨ c = '&' := by
  intro c hmem
  have hall : ("token=".toList ++ "&viewer_id=".toList).all
      (fun c => isPlainChar c || (c == '=' || c == '&')) = true := by decide
  have hliterals : ∀ c ∈ "token=".toList ++ "&viewer_id=".toList,
      isPlainChar c = true ∨ c = '=' ∨ c = '&' := fun c hmem => by
    simpa only [Bool.or_eq_true, beq_iff_eq] using List.all_eq_true.mp hall c hmem
  rw [segmentQuery_eq, List.mem_append, List.mem_append] at hmem
  rcases hmem with (hmem | hmem) | hmem
  · exact hliterals c (List.mem_append_left _ hmem)
  · exact .inl (h.token.chars c hmem)
  · by_cases hnone : viewerId = []
    · rw [if_pos hnone] at hmem
      exact absurd hmem List.not_mem_nil
    · rw [if_neg hnone] at hmem
      rcases List.mem_append.mp hmem with hmem | hmem
      · exact hliterals c (List.mem_append_right _ hmem)
      · exact .inl ((h.viewer.resolve_left hnone).chars c hmem)

theorem request_chars : ∀ c ∈ segmentRoute channelUuid name ++ '?' :: segmentQuery token viewerId,
    isRequestChar c = true := by
  intro c hmem
  rcases List.mem_append.mp hmem with hroute | hquery
  · rcases h.route_chars c hroute with hplain | rfl | rfl
    · exact isRequestChar_of_isPlainChar hplain
    all_goals decide
  · rcases List.mem_cons.mp hquery with rfl | hquery
    · decide
    · rcases h.query_chars c hquery with hplain | rfl | rfl
      · exact isRequestChar_of_isPlainChar hplain
      all_goals decide

end IsSegmentRequest

/-! ## `urlparse` -/

theorem splitScheme_route (rest : Text) : splitScheme ('/' :: rest) = ([], '/' :: rest) := by
  unfold splitScheme
  split
  · next first scheme behind hcut =>
      obtain ⟨rfl, -⟩ := List.cons.inj (cutFirst_eq_some hcut)
      rw [if_neg (by simp [show Char.isAlpha '/' = false from rfl])]
  · rfl

theorem splitNetloc_route {c : Char} (hc : c ≠ '/') (rest : Text) :
    splitNetloc ('/' :: c :: rest) = (none, '/' :: c :: rest) := by
  unfold splitNetloc
  split
  · next heq => exact absurd (List.cons.inj (List.cons.inj heq).2).1 hc
  · rfl

theorem partition_of_notMem {sep : Char} {text : Text} (h : sep ∉ text) :
    partition sep text = (text, []) := by
  rw [partition, cutFirst_singleton_eq_none_iff.mpr h]
  rfl

theorem partition_append {sep : Char} {before after : Text} (h : sep ∉ before) :
    partition sep (before ++ sep :: after) = (before, after) := by
  rw [partition, cutFirst_singleton_eq_some_iff.mpr ⟨rfl, h⟩]
  rfl

/-- The request falls into its route and its query. -/
theorem urlparse_segment (h : IsSegmentRequest channelUuid name token viewerId) :
    urlparse lib (segmentRoute channelUuid name ++ '?' :: segmentQuery token viewerId) =
      some { path := segmentRoute channelUuid name, query := segmentQuery token viewerId } := by
  obtain ⟨c, uuid, huuid⟩ := List.exists_cons_of_ne_nil h.channel.some
  have hc : c ≠ '/' := by
    rintro rfl
    exact h.channel.notMem (by decide) (huuid ▸ List.mem_cons_self)
  have hchars := h.request_chars
  generalize hquery : segmentQuery token viewerId = query at hchars
  have hroute : segmentRoute channelUuid name ++ '?' :: query =
      '/' :: c :: (uuid ++ '/' :: (name ++ '?' :: query)) := by
    simp [segmentRoute, huuid]
  have hclean : (((segmentRoute channelUuid name ++ '?' :: query).dropWhile (·.val ≤ 0x20)).filter
      fun c => c != '\t' && c != '\r' && c != '\n') =
        segmentRoute channelUuid name ++ '?' :: query := by
    have hdrop : (segmentRoute channelUuid name ++ '?' :: query).dropWhile (·.val ≤ 0x20) =
        segmentRoute channelUuid name ++ '?' :: query := by
      rw [hroute, List.dropWhile_cons_of_neg (by decide)]
    rw [hdrop, List.filter_eq_self]
    intro d hmem
    have htab : d ≠ '\t' := ne_of_isRequestChar (hchars d hmem) (by decide)
    have hreturn : d ≠ '\r' := ne_of_isRequestChar (hchars d hmem) (by decide)
    have hfeed : d ≠ '\n' := ne_of_isRequestChar (hchars d hmem) (by decide)
    rw [bne_iff_ne.mpr htab, bne_iff_ne.mpr hreturn, bne_iff_ne.mpr hfeed]
    rfl
  have hfragment : '#' ∉ segmentRoute channelUuid name ++ '?' :: query := fun hmem =>
    ne_of_isRequestChar (hchars '#' hmem) (by decide) rfl
  have hmark : '?' ∉ segmentRoute channelUuid name := by
    intro hmem
    rcases h.route_chars '?' hmem with hplain | hdot | hslash
    · exact absurd hplain (by decide)
    · exact absurd hdot (by decide)
    · exact absurd hslash (by decide)
  have hparams : withoutParams (segmentRoute channelUuid name) = segmentRoute channelUuid name := by
    have hcut : cutLast '/' (segmentRoute channelUuid name) = some ('/' :: channelUuid, name) :=
      cutLast_eq_some_iff.mpr ⟨rfl, h.name_notMem (by decide) (by decide)⟩
    rw [withoutParams, hcut]
    dsimp only
    rw [partition_of_notMem (h.name_notMem (by decide) (by decide))]
    rfl
  have hscheme : ([] : Text) ∈ usesParams := by decide
  unfold urlparse
  simp only [hclean]
  rw [hroute, splitScheme_route, splitNetloc_route hc, ← hroute]
  dsimp only
  rw [if_pos (by rfl), partition_of_notMem hfragment, partition_append hmark, if_pos hscheme, hparams]

/-! ## the channel, the file and the token -/

/-- A path of a channel and a file, without the slash in front. -/
theorem dropWhile_route (h : IsSegmentRequest channelUuid name token viewerId) :
    (segmentRoute channelUuid name).dropWhile (· ∈ ['/']) = channelUuid ++ '/' :: name := by
  obtain ⟨c, uuid, huuid⟩ := List.exists_cons_of_ne_nil h.channel.some
  have hc : c ∉ ['/'] := by
    rw [List.mem_singleton]
    rintro rfl
    exact h.channel.notMem (by decide) (huuid ▸ List.mem_cons_self)
  rw [segmentRoute, huuid]
  show (c :: (uuid ++ '/' :: name)).dropWhile (· ∈ ['/']) = _
  rw [List.dropWhile_cons_of_neg (by simpa using hc)]
  rfl

theorem stripSlashes_route (h : IsSegmentRequest channelUuid name token viewerId) :
    stripSlashes (segmentRoute channelUuid name) = channelUuid ++ '/' :: name := by
  obtain ⟨before, c, rfl⟩ := List.eq_nil_or_concat' name |>.resolve_left h.servable.chars.1
  have hc : c ∉ ['/'] := by
    rw [List.mem_singleton]
    rintro rfl
    exact h.name_notMem (d := '/') (by decide) (by decide) (by simp)
  rw [stripSlashes, stripChars, dropWhile_route h]
  have hreverse : (channelUuid ++ '/' :: (before ++ [c])).reverse =
      c :: (channelUuid ++ '/' :: before).reverse := by simp
  rw [hreverse, List.dropWhile_cons_of_neg (by simpa using hc), ← hreverse, List.reverse_reverse]

theorem splitOn_route (h : IsSegmentRequest channelUuid name token viewerId) :
    (channelUuid ++ '/' :: name).splitOn '/' = [channelUuid, name] := by
  rw [List.splitOn_append_cons_self, List.splitOn_eq_singleton (h.channel.notMem (by decide)),
    List.splitOn_eq_singleton (h.name_notMem (by decide) (by decide))]
  rfl

theorem components_route (h : IsSegmentRequest channelUuid name token viewerId) :
    components (channelUuid ++ '/' :: name) = [channelUuid, name] := by
  have hchannel : channelUuid ≠ ['.'] := by
    rintro rfl
    exact h.channel.notMem (d := '.') (by decide) List.mem_cons_self
  rw [components, splitOn_route h, List.filter_eq_self]
  intro part hmem
  rw [Bool.and_eq_true, bne_iff_ne, bne_iff_ne]
  rcases List.mem_cons.mp hmem with rfl | hmem
  · exact ⟨h.channel.some, hchannel⟩
  · rw [List.mem_singleton.mp hmem]
    exact ⟨h.servable.chars.1, h.servable.no_step.1⟩

/-- **Spec of `_resolve_request_path`** on such a request: the file in its
channel's directory. -/
theorem resolveRequestPath_segment (h : IsSegmentRequest channelUuid name token viewerId)
    (root : Path) :
    resolveRequestPath lib (some root)
        (segmentRoute channelUuid name ++ '?' :: segmentQuery token viewerId) =
      .ok (some (channelUuid, root ++ [channelUuid, name])) := by
  have hraw : unquote (segmentRoute channelUuid name) = segmentRoute channelUuid name :=
    unquote_plain fun c hmem => h.request_chars c (List.mem_append_left _ hmem)
  have hzero : '\x00' ∉ segmentRoute channelUuid name := fun hmem =>
    ne_of_isRequestChar (h.request_chars _ (List.mem_append_left _ hmem)) (by decide) rfl
  have hdots : ['.', '.'] ∉ [channelUuid, name] := by
    rw [List.mem_cons, List.mem_singleton, not_or]
    refine ⟨?_, h.servable.no_step.2.symm⟩
    rintro rfl
    exact h.channel.notMem (d := '.') (by decide) List.mem_cons_self
  have hresolve : resolve root (channelUuid ++ '/' :: name) = root ++ [channelUuid, name] := by
    rw [resolve_eq (by rwa [components_route h]), components_route h]
  have hparts : ¬ (['.', '.'] ∈ [channelUuid, name] ∨ [channelUuid, name].length < 2) := by
    rw [not_or]
    exact ⟨hdots, by simp⟩
  rw [resolveRequestPath, urlparse_segment h]
  dsimp only
  rw [hraw, if_neg hzero, stripSlashes_route h, splitOn_route h, if_neg hparts, dropWhile_route h,
    hresolve, if_pos (List.isPrefixOf_iff_prefix.mpr (List.prefix_append _ _))]
  rfl

theorem parseQsl_segment (h : IsSegmentRequest channelUuid name token viewerId) :
    ∃ rest, parseQsl (segmentQuery token viewerId) = ("token".toList, token) :: rest := by
  have hplus : token.map (fun c => if c = '+' then ' ' else c) = token := by
    refine (List.map_congr_left fun c hmem => if_neg ?_).trans (List.map_id token)
    rintro rfl
    exact h.token.notMem (by decide) hmem
  have htoken : unquote token = token :=
    unquote_plain fun c hmem => isRequestChar_of_isPlainChar (h.token.chars c hmem)
  have hname : cutFirst ['='] ("token=".toList ++ token) = some ("token".toList, token) :=
    cutFirst_singleton_eq_some_iff.mpr ⟨rfl, by decide⟩
  have hunquote : unquote ("token".toList.map fun c => if c = '+' then ' ' else c) =
      "token".toList := by decide
  have hsingle : ("token=".toList ++ token).splitOn '&' = ["token=".toList ++ token] := by
    refine List.splitOn_eq_singleton fun hmem => ?_
    rcases List.mem_append.mp hmem with hmem | hmem
    · exact absurd hmem (by decide)
    · exact h.token.notMem (by decide) hmem
  have hsplit : ∃ rest, (segmentQuery token viewerId).splitOn '&' =
      ("token=".toList ++ token) :: rest := by
    rw [segmentQuery_eq]
    by_cases hnone : viewerId = []
    · rw [if_pos hnone, List.append_nil]
      exact ⟨[], hsingle⟩
    · rw [if_neg hnone]
      refine ⟨("viewer_id=".toList ++ viewerId).splitOn '&', ?_⟩
      show (("token=".toList ++ token) ++ '&' :: ("viewer_id=".toList ++ viewerId)).splitOn '&' = _
      rw [List.splitOn_append_cons_self, hsingle]
      rfl
  obtain ⟨rest, hrest⟩ := hsplit
  rw [parseQsl, hrest, List.filterMap_cons, hname]
  dsimp only
  rw [if_neg h.token.some, hplus, htoken, hunquote]
  exact ⟨_, rfl⟩

theorem requestToken_segment (h : IsSegmentRequest channelUuid name token viewerId) :
    requestToken lib (segmentRoute channelUuid name ++ '?' :: segmentQuery token viewerId) =
      some token := by
  obtain ⟨rest, hrest⟩ := parseQsl_segment h
  rw [requestToken, urlparse_segment h, Option.bind_some, firstValue, hrest,
    List.find?_cons_of_pos (by simp)]
  rfl

/-- **Spec of `_resolve_and_authorize`** on such a request. -/
theorem resolveAndAuthorize_segment (h : IsSegmentRequest channelUuid name token viewerId)
    (buffers : StoredBuffers lib) (root : Path) (storage : Storage) :
    resolveAndAuthorize lib buffers (some root) storage
        (segmentRoute channelUuid name ++ '?' :: segmentQuery token viewerId) =
      match buffers.get channelUuid with
      | .error _ => .error (.error 503)
      | .ok state =>
          if state.bind (·.accessToken) = some token then
            match storage (root ++ [channelUuid, name]) with
            | .file _ => .ok (root ++ [channelUuid, name])
            | .unreadable => .error .dropped
            | _ => .error (.error 404)
          else .error (.error 403) := by
  have hname : isServableName ((root ++ [channelUuid, name]).getLast?.getD []) = true := by
    simpa using h.name
  rw [resolveAndAuthorize, resolveRequestPath_segment h root]
  dsimp only
  rw [checkAccessToken, requestToken_segment h, if_pos hname]
  cases buffers.get channelUuid with
  | error e => rfl
  | ok state =>
      rw [Except.map]
      dsimp only
      cases state.bind (·.accessToken) with
      | none => rfl
      | some expected =>
          by_cases hsame : expected = token
          · have hright : (expected != [] && (some token == some expected)) = true := by
              simp [hsame, h.token.some]
            rw [if_pos (congrArg some hsame)]
            dsimp only
            cases storage (root ++ [channelUuid, name]) <;> rw [hright]
          · have hwrong : (expected != [] && (some token == some expected)) = false := by
              simp [Ne.symm hsame]
            rw [if_neg fun heq => hsame (Option.some.inj heq)]
            dsimp only
            rw [hwrong]

end Request

end FileServer

end TimeshiftBuffer

end DispatcharrPvr
