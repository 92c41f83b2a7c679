import Mathlib.Data.Finset.Lattice.Lemmas
import Namecon.Sdp.Proof.Offer

/-!
# The payload types of an offer

`parseOffer` lets the payload types of an m= line into the process-wide sets as it reads the line,
and may throw further down. `mediaRead` are the m= lines it gets to see, from the text alone; the
sets gain exactly their numbers, whether the offer is answered, refused or thrown upon
(`gains_generateAnswer`). What the static members hold beforehand has no part in anything
else the parser does (`alike_generateAnswer`).
-/

namespace Namecon.SdpParser

open Lines

variable {p q : SdpParser} {line : Text} {current : MediaSection}

/-! ## The m= lines that are read -/

/-- Whether `stoi` throws on the line in a section of the type `type`. -/
def malformed (type : Option Text) (line : Text) : Bool :=
  starts "a=rtpmap:" line && type.any fun type => (readRtpmap {} type (line.drop 9)).isNone

/-- The types and payload types of the m= lines down to the first line on which `stoi` throws, or of
all of them; `type` is the type of the section at the start. -/
def mediaRead : Option Text → List Text → List (Text × Text)
  | _, [] => []
  | type, raw :: rest =>
    match trimLine raw with
    | none => mediaRead type rest
    | some line =>
      if starts "m=" line then
        readMedia (line.drop 2) :: mediaRead (some (readMedia (line.drop 2)).1) rest
      else if malformed type line then []
      else mediaRead type rest

/-- The payload types, cut to eight bits, of the m= lines of one kind. -/
def payloadTypesOf (kind : String) (media : List (Text × Text)) : Finset UInt8 :=
  (media.flatMap fun m =>
    if m.1 = kind.toList then (readInts m.2.length m.2).map toUInt8 else []).toFinset

theorem mem_payloadTypesOf {kind : String} {media : List (Text × Text)} {pt : UInt8} :
    pt ∈ payloadTypesOf kind media ↔
      ∃ m ∈ media, m.1 = kind.toList ∧ ∃ n ∈ readInts m.2.length m.2, toUInt8 n = pt := by
  unfold payloadTypesOf
  rw [List.mem_toFinset, List.mem_flatMap]
  refine exists_congr fun m => and_congr_right fun _ => ?_
  by_cases hm : m.1 = kind.toList
  · rw [if_pos hm, List.mem_map]
    exact (and_iff_right hm).symm
  · rw [if_neg hm]
    exact iff_of_false List.not_mem_nil fun h => hm h.1

/-- `g'` is `g` with the payload types of `media` in its sets. -/
structure Gains (g : PayloadTypes) (media : List (Text × Text)) (g' : PayloadTypes) : Prop where
  videoPTs : g'.videoPTs = g.videoPTs ∪ payloadTypesOf "video" media
  audioPTs : g'.audioPTs = g.audioPTs ∪ payloadTypesOf "audio" media

theorem payloadTypesOf_append (kind : String) (media media' : List (Text × Text)) :
    payloadTypesOf kind (media ++ media') =
      payloadTypesOf kind media ∪ payloadTypesOf kind media' := by
  unfold payloadTypesOf
  rw [List.flatMap_append, List.toFinset_append]

theorem Gains.trans {g g' g'' : PayloadTypes} {media media' : List (Text × Text)}
    (h : Gains g media g') (h' : Gains g' media' g'') : Gains g (media ++ media') g'' where
  videoPTs := by
    rw [h'.videoPTs, h.videoPTs, payloadTypesOf_append, Finset.union_assoc]
  audioPTs := by
    rw [h'.audioPTs, h.audioPTs, payloadTypesOf_append, Finset.union_assoc]

theorem Gains.of_eq {g g' : PayloadTypes} (hv : g'.videoPTs = g.videoPTs)
    (ha : g'.audioPTs = g.audioPTs) : Gains g [] g' where
  videoPTs := by rw [hv]; exact (Finset.union_empty _).symm
  audioPTs := by rw [ha]; exact (Finset.union_empty _).symm

theorem payloadTypesOf_single (kind : String) (m : Text × Text) : payloadTypesOf kind [m] =
    if m.1 = kind.toList then ((readInts m.2.length m.2).map toUInt8).toFinset else ∅ := by
  unfold payloadTypesOf
  rw [List.flatMap_singleton]
  split <;> rfl

theorem gains_insertAll (g : PayloadTypes) (m : Text × Text) :
    Gains g [m] (PayloadTypes.insertAll g m.1 m.2) := by
  have hkind : "video".toList ≠ "audio".toList := by decide
  unfold PayloadTypes.insertAll
  dsimp only
  by_cases hv : m.1 = "video".toList
  · have ha : m.1 ≠ "audio".toList := fun h => hkind (hv.symm.trans h)
    rw [if_pos hv]
    constructor
    · rw [payloadTypesOf_single, if_pos hv]
    · rw [payloadTypesOf_single, if_neg ha, Finset.union_empty]
  · rw [if_neg hv]
    by_cases ha : m.1 = "audio".toList
    · rw [if_pos ha]
      constructor
      · rw [payloadTypesOf_single, if_neg hv, Finset.union_empty]
      · rw [payloadTypesOf_single, if_pos ha]
    · rw [if_neg ha]
      constructor
      · rw [payloadTypesOf_single, if_neg hv, Finset.union_empty]
      · rw [payloadTypesOf_single, if_neg ha, Finset.union_empty]

/-! ## One line -/

/-- The type of `current`, where there is one. -/
def currentType (p : SdpParser) : Option Text := p.sections.getLast?.map (·.type)

/-- The parser a function leaves, whether it throws or not. -/
def parserAfter : Except SdpParser SdpParser → SdpParser
  | .error p => p
  | .ok p => p

/-- A line that is no m= line leaves the sets and the type of the section. -/
structure Keeps (p : SdpParser) (line : Text) (res : Except SdpParser SdpParser) : Prop where
  gains : Gains p.statics [] (parserAfter res).statics
  type : (parserAfter res).currentType = p.currentType
  throws : (∃ p', res = .error p') ↔ malformed p.currentType line = true

theorem Keeps.ok {p' : SdpParser} (hv : p'.statics.videoPTs = p.statics.videoPTs)
    (ha : p'.statics.audioPTs = p.statics.audioPTs) (ht : p'.currentType = p.currentType)
    (hm : malformed p.currentType line = false) : Keeps p line (.ok p') := by
  refine ⟨.of_eq hv ha, ht, ?_⟩
  rw [hm]
  exact iff_of_false (fun ⟨_, h⟩ => by cases h) Bool.false_ne_true

theorem malformed_clash {k : String} (hk : k.toList <+: line)
    (hclash : Clash "a=rtpmap:".toList k.toList) (type : Option Text) :
    malformed type line = false := by
  have hs : starts "a=rtpmap:" line = false :=
    Bool.eq_false_iff.2 fun hs => hclash.not_prefix' hk ((starts_iff _ _).1 hs)
  unfold malformed
  rw [hs, Bool.false_and]

theorem starts_of_extractAttr {key : String} (h : extractAttr line key ≠ []) :
    ("a=".toList ++ key.toList ++ [':']) <+: line :=
  not_not.1 fun hp => h (extractAttr_none hp)

theorem malformed_directed {d : Direction} (h : readDirection line = some d)
    (type : Option Text) : malformed type line = false := by
  have hclash : ∀ k ∈ attributeKeywords, Clash "a=rtpmap:".toList k.toList := by decide
  by_contra hmal
  obtain ⟨k, hk, hpre⟩ : ∃ k ∈ attributeKeywords, k.toList <+: line := by
    by_contra hnone
    rw [readDirection_none fun k hk hpre => hnone ⟨k, hk, hpre⟩] at h
    cases h
  exact hmal (malformed_clash hpre (hclash k hk) type)

theorem currentType_setCurrent (hc : p.sections.getLast? = some current) {sec : MediaSection}
    (ht : sec.type = current.type) : (p.setCurrent sec).currentType = p.currentType := by
  unfold currentType setCurrent
  dsimp only
  rw [List.getLast?_concat, hc]
  exact congrArg some ht

theorem readRtpmap_sets {g g' : PayloadTypes} {type rv : Text}
    (h : readRtpmap g type rv = some g') :
    g'.videoPTs = g.videoPTs ∧ g'.audioPTs = g.audioPTs := by
  unfold readRtpmap at h
  dsimp only at h
  split at h
  · obtain ⟨n, -, rfl⟩ := Option.map_eq_some_iff.1 h
    exact ⟨rfl, rfl⟩
  · split at h
    · obtain ⟨n, -, rfl⟩ := Option.map_eq_some_iff.1 h
      exact ⟨rfl, rfl⟩
    · obtain rfl := Option.some.inj h
      exact ⟨rfl, rfl⟩

theorem readRtpmap_none (g g' : PayloadTypes) (type rv : Text) :
    readRtpmap g type rv = none ↔ readRtpmap g' type rv = none := by
  rw [← Option.isNone_iff_eq_none, ← Option.isNone_iff_eq_none, ← Option.not_isSome,
    ← Option.not_isSome, readRtpmap_isSome g g']

theorem keeps_parseRtpmap (hc : p.sections.getLast? = some current)
    (hl : starts "a=rtpmap:" line = true) : Keeps p line (p.parseRtpmap current line) := by
  have ht : (p.pushCodecLine current line).currentType = p.currentType :=
    currentType_setCurrent hc rfl
  have hcur : p.currentType = some current.type := by
    unfold currentType
    rw [hc]
    rfl
  have hmal : malformed p.currentType line = true ↔
      readRtpmap p.statics current.type (line.drop 9) = none := by
    unfold malformed
    rw [hl, hcur, Bool.true_and, Option.any_some, Option.isNone_iff_eq_none]
    exact readRtpmap_none _ _ _ _
  unfold parseRtpmap
  cases hr : readRtpmap p.statics current.type (line.drop 9) with
  | none => exact ⟨.of_eq rfl rfl, ht, iff_of_true ⟨_, rfl⟩ (hmal.2 hr)⟩
  | some statics =>
    obtain ⟨hv, ha⟩ := readRtpmap_sets hr
    refine .ok hv ha ht (Bool.eq_false_iff.2 fun h => ?_)
    rw [hmal.1 h] at hr
    cases hr

theorem keeps_parseAttribute (hc : p.sections.getLast? = some current) :
    Keeps p line (p.parseAttribute current line) := by
  unfold parseAttribute
  dsimp only
  by_cases hmid : extractAttr line "mid" ≠ []
  · rw [if_pos hmid]
    exact .ok rfl rfl (currentType_setCurrent hc rfl)
      (malformed_clash (k := "a=mid:") (starts_of_extractAttr hmid) (by decide) _)
  rw [if_neg hmid]
  cases hd : readDirection line with
  | some d => exact .ok rfl rfl (currentType_setCurrent hc rfl) (malformed_directed hd _)
  | none =>
    dsimp only
    by_cases hrtpmap : starts "a=rtpmap:" line = true
    · rw [if_pos hrtpmap]
      exact keeps_parseRtpmap hc hrtpmap
    · have hmal : malformed p.currentType line = false := by
        unfold malformed
        rw [Bool.eq_false_iff.2 hrtpmap, Bool.false_and]
      rw [if_neg hrtpmap]
      split
      · exact .ok rfl rfl (currentType_setCurrent hc rfl) hmal
      · split
        · exact .ok rfl rfl (currentType_setCurrent hc rfl) hmal
        · exact .ok rfl rfl rfl hmal

theorem keeps_parseTrimmed (hm : ¬ starts "m=" line = true) :
    Keeps p line (p.parseTrimmed line) := by
  unfold parseTrimmed
  dsimp only
  rw [if_neg hm]
  by_cases hu : extractAttr line "ice-ufrag" ≠ []
  · have hmal := malformed_clash (k := "a=ice-ufrag:") (starts_of_extractAttr hu) (by decide)
      p.currentType
    rw [if_pos hu]
    split <;> exact .ok rfl rfl rfl hmal
  rw [if_neg hu]
  by_cases hp : extractAttr line "ice-pwd" ≠ []
  · have hmal := malformed_clash (k := "a=ice-pwd:") (starts_of_extractAttr hp) (by decide)
      p.currentType
    rw [if_pos hp]
    split <;> exact .ok rfl rfl rfl hmal
  rw [if_neg hp]
  by_cases hf : extractAttr line "fingerprint" ≠ []
  · have hmal := malformed_clash (k := "a=fingerprint:") (starts_of_extractAttr hf) (by decide)
      p.currentType
    rw [if_pos hf]
    split <;> exact .ok rfl rfl rfl hmal
  rw [if_neg hf]
  cases hc : p.sections.getLast? with
  | none =>
    refine .ok rfl rfl rfl ?_
    unfold malformed currentType
    rw [hc, Option.map_none, Option.any_none, Bool.and_false]
  | some current => exact keeps_parseAttribute hc

theorem currentType_openSection (p : SdpParser) (ms : Text) :
    (p.openSection ms).currentType = some (readMedia ms).1 := by
  unfold currentType openSection
  dsimp only
  rw [List.getLast?_concat]
  rfl

/-! ## Whole offers -/

/-- Reading the lines lets into the sets what the m= lines name that are read. -/
theorem gains_foldlM (ls : List Text) (p : SdpParser) : Gains p.statics
    (mediaRead p.currentType ls) (parserAfter (ls.foldlM parseLine p)).statics := by
  induction ls generalizing p with
  | nil => exact .of_eq rfl rfl
  | cons raw ls ih =>
    rw [List.foldlM_cons, parseLine, mediaRead]
    cases trimLine raw with
    | none => exact ih p
    | some line =>
      dsimp only
      by_cases hm : starts "m=" line = true
      · have hopen : p.parseTrimmed line = .ok (p.openSection (line.drop 2)) := by
          unfold parseTrimmed
          exact if_pos hm
        rw [if_pos hm, hopen, ← currentType_openSection p]
        exact (gains_insertAll _ _).trans (ih (p.openSection (line.drop 2)))
      · have hkeeps := keeps_parseTrimmed (p := p) hm
        rw [if_neg hm]
        cases hres : p.parseTrimmed line with
        | error e =>
          rw [hres] at hkeeps
          rw [if_pos (hkeeps.throws.1 ⟨e, rfl⟩)]
          exact hkeeps.gains
        | ok p' =>
          rw [hres] at hkeeps
          have hmal : ¬ malformed p.currentType line = true := fun h => by
            obtain ⟨e, he⟩ := hkeeps.throws.2 h
            cases he
          have htype : p'.currentType = p.currentType := hkeeps.type
          rw [if_neg hmal, ← htype]
          exact hkeeps.gains.trans (ih p')

/-- The m= lines of an offer that are read. -/
def mediaOf (sdp : Text) : List (Text × Text) := mediaRead none (lines '\n' sdp)

theorem gains_generateAnswer (p : SdpParser) (sdp : Text) : Gains p.statics (mediaOf sdp)
    (parserAfter ((p.generateAnswer sdp).map Prod.fst)).statics := by
  have h := gains_foldlM (lines '\n' sdp) { p with sections := [] }
  unfold generateAnswer parseOffer
  cases hf : (lines '\n' sdp).foldlM parseLine { p with sections := [] } with
  | error e =>
    rw [hf] at h
    exact h
  | ok q =>
    rw [hf] at h
    dsimp only
    cases decide (q.iceUfrag ≠ [] ∧ q.fingerprint ≠ [] ∧ q.sections ≠ []) <;> exact h

/-! ## Other static members -/

/-- `q` is `p` with other static members that have the same video types. -/
def Alike (p q : SdpParser) : Prop :=
  q.statics.videoPTs = p.statics.videoPTs ∧ { q with statics := p.statics } = p

/-- Both throw, or neither does, and what they leave is alike. -/
inductive AlikeResult : Except SdpParser SdpParser → Except SdpParser SdpParser → Prop
  | error {p q : SdpParser} : Alike p q → AlikeResult (.error p) (.error q)
  | ok {p q : SdpParser} : Alike p q → AlikeResult (.ok p) (.ok q)

theorem Alike.exists_eq (h : Alike p q) :
    ∃ g : PayloadTypes, g.videoPTs = p.statics.videoPTs ∧ q = { p with statics := g } := by
  refine ⟨q.statics, h.1, ?_⟩
  conv_rhs => rw [← h.2]

theorem alike_openSection {g : PayloadTypes} (hg : g.videoPTs = p.statics.videoPTs) (ms : Text) :
    Alike (p.openSection ms) (openSection { p with statics := g } ms) := by
  refine ⟨?_, rfl⟩
  rw [openSection, openSection, (gains_insertAll _ _).videoPTs, (gains_insertAll _ _).videoPTs]
  exact congrArg (· ∪ _) hg

theorem alike_parseRtpmap {g : PayloadTypes} (hg : g.videoPTs = p.statics.videoPTs) :
    AlikeResult (p.parseRtpmap current line)
      (parseRtpmap { p with statics := g } current line) := by
  unfold parseRtpmap
  cases hr : readRtpmap p.statics current.type (line.drop 9) with
  | none =>
    rw [(readRtpmap_none p.statics g _ _).1 hr]
    exact .error ⟨hg, rfl⟩
  | some s =>
    cases hr' : readRtpmap g current.type (line.drop 9) with
    | none =>
      rw [(readRtpmap_none g p.statics _ _).1 hr'] at hr
      cases hr
    | some s' =>
      have hs : s'.videoPTs = s.videoPTs :=
        (readRtpmap_sets hr').1.trans (hg.trans (readRtpmap_sets hr).1.symm)
      exact .ok ⟨hs, rfl⟩

theorem alike_parseAttribute {g : PayloadTypes} (hg : g.videoPTs = p.statics.videoPTs) :
    AlikeResult (p.parseAttribute current line)
      (parseAttribute { p with statics := g } current line) := by
  unfold parseAttribute
  dsimp only
  by_cases hmid : extractAttr line "mid" ≠ []
  · rw [if_pos hmid, if_pos hmid]
    exact .ok ⟨hg, rfl⟩
  rw [if_neg hmid, if_neg hmid]
  cases readDirection line with
  | some d => exact .ok ⟨hg, rfl⟩
  | none =>
    dsimp only
    by_cases hr : starts "a=rtpmap:" line = true
    · rw [if_pos hr, if_pos hr]
      exact alike_parseRtpmap hg
    rw [if_neg hr, if_neg hr]
    by_cases hfb : starts "a=rtcp-fb:" line = true
    · rw [if_pos hfb, if_pos hfb]
      exact .ok ⟨hg, rfl⟩
    rw [if_neg hfb, if_neg hfb]
    by_cases hfmtp : starts "a=fmtp:" line = true
    · rw [if_pos hfmtp, if_pos hfmtp]
      exact .ok ⟨hg, rfl⟩
    · rw [if_neg hfmtp, if_neg hfmtp]
      exact .ok ⟨hg, rfl⟩

theorem alike_parseTrimmed (h : Alike p q) (line : Text) :
    AlikeResult (p.parseTrimmed line) (q.parseTrimmed line) := by
  obtain ⟨g, hg, rfl⟩ := h.exists_eq
  unfold parseTrimmed
  dsimp only
  by_cases hm : starts "m=" line = true
  · rw [if_pos hm, if_pos hm]
    exact .ok (alike_openSection hg _)
  rw [if_neg hm, if_neg hm]
  by_cases hu : extractAttr line "ice-ufrag" ≠ []
  · rw [if_pos hu, if_pos hu]
    split <;> exact .ok ⟨hg, rfl⟩
  rw [if_neg hu, if_neg hu]
  by_cases hp : extractAttr line "ice-pwd" ≠ []
  · rw [if_pos hp, if_pos hp]
    split <;> exact .ok ⟨hg, rfl⟩
  rw [if_neg hp, if_neg hp]
  by_cases hf : extractAttr line "fingerprint" ≠ []
  · rw [if_pos hf, if_pos hf]
    split <;> exact .ok ⟨hg, rfl⟩
  rw [if_neg hf, if_neg hf]
  cases p.sections.getLast? with
  | none => exact .ok ⟨hg, rfl⟩
  | some current => exact alike_parseAttribute hg

theorem alike_foldlM (ls : List Text) (h : Alike p q) :
    AlikeResult (ls.foldlM parseLine p) (ls.foldlM parseLine q) := by
  induction ls generalizing p q with
  | nil => exact .ok h
  | cons raw ls ih =>
    rw [List.foldlM_cons, List.foldlM_cons, parseLine, parseLine]
    cases trimLine raw with
    | none => exact ih h
    | some line =>
      have hline := alike_parseTrimmed h line
      dsimp only
      generalize p.parseTrimmed line = res at hline
      generalize q.parseTrimmed line = res' at hline
      cases hline with
      | error he => exact .error he
      | ok hp => exact ih hp

theorem alike_generateAnswer (h : Alike p q) (sdp : Text) :
    (∃ e e', p.generateAnswer sdp = .error e ∧ q.generateAnswer sdp = .error e' ∧ Alike e e') ∨
      ∃ a a' answer, p.generateAnswer sdp = .ok (a, answer) ∧
        q.generateAnswer sdp = .ok (a', answer) ∧ Alike a a' := by
  obtain ⟨g, hg, rfl⟩ := h.exists_eq
  have hres := alike_foldlM (lines '\n' sdp) (p := { p with sections := [] })
    (q := { p with sections := [], statics := g }) ⟨hg, rfl⟩
  unfold generateAnswer parseOffer
  dsimp only
  generalize (lines '\n' sdp).foldlM parseLine { p with sections := [] } = res at hres
  generalize
    (lines '\n' sdp).foldlM parseLine { p with sections := [], statics := g } = res' at hres
  cases hres with
  | error he => exact .inl ⟨_, _, rfl, rfl, he⟩
  | @ok a a' ha =>
    obtain ⟨g', hg', rfl⟩ := ha.exists_eq
    dsimp only
    cases decide (a.iceUfrag ≠ [] ∧ a.fingerprint ≠ [] ∧ a.sections ≠ []) with
    | false => exact .inr ⟨_, _, _, rfl, rfl, ha⟩
    | true => exact .inr ⟨_, _, _, rfl, rfl, ha⟩

end Namecon.SdpParser
