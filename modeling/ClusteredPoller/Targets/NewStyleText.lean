import ClusteredPoller.Targets.Rows

/-!
# The text of a new-style targets file

Hosts and targets written in the documented layout, with white space of any
kind between the words, and what the readers make of each piece of it.  Every
piece is written in front of the text that follows it.
-/

namespace ClusteredPoller.Targets

open Library.Format (Ends ends_cons)
open Library.Outcome (ok_bind)
open Poller

/-! ## Hosts and targets as they are written -/

/-- White space between two words. -/
structure Gap where
  chars : List Char
  nonempty : chars ≠ []
  spaces : ∀ char ∈ chars, isspace char = true

/-- A word that fits the buffer for arguments and has no semicolon. -/
structure Argument where
  text : CString
  nonempty : text.chars ≠ []
  noSpace : ∀ char ∈ text.chars, isspace char = false
  noSemicolon : ';' ∉ text.chars
  fits : text.chars.length ≤ 128
  deriving DecidableEq

/-- A word that fits the buffer for tokens. -/
structure HostName where
  text : CString
  nonempty : text.chars ≠ []
  noSpace : ∀ char ∈ text.chars, isspace char = false
  fits : text.chars.length ≤ 512
  deriving DecidableEq

structure TargetText where
  oid : Argument
  bits : UInt32
  table : Argument
  id : UInt32
  speed : UInt64
  deriving DecidableEq

structure HostText where
  name : HostName
  community : Argument
  snmpver : Int
  snmpver_lower : -2 ^ 31 ≤ snmpver
  snmpver_upper : snmpver < 2 ^ 31
  targets : List TargetText
  deriving DecidableEq

/-- The white space between a directive and its argument, and at the end of a
line, by the depth of the block. -/
structure Layout where
  blank : Gap
  line : Nat → Gap

namespace Layout

variable (layout : Layout)

/-- `KEYWORD VALUE;` -/
def directive (depth : Nat) (keyword value rest : List Char) : List Char :=
  keyword ++ (layout.blank.chars ++ (value ++ ';' :: ((layout.line depth).chars ++ rest)))

/-- `\x7b`, and the end of its line -/
def openBlock (depth : Nat) (rest : List Char) : List Char :=
  '\x7b' :: ((layout.line depth).chars ++ rest)

/-- `\x7d;`, and the end of its line -/
def closeBlock (depth : Nat) (rest : List Char) : List Char :=
  '\x7d' :: ';' :: ((layout.line depth).chars ++ rest)

/-- What stands in the block of a target. -/
def rowText (target : TargetText) (rest : List Char) : List Char :=
  layout.openBlock 2 <|
    layout.directive 2 Keyword.bits.chars (Nat.toDigits 10 target.bits.toNat) <|
      layout.directive 2 Keyword.table.chars target.table.text.chars <|
        layout.directive 2 Keyword.id.chars (Nat.toDigits 10 target.id.toNat) <|
          layout.directive 2 Keyword.speed.chars (Nat.toDigits 10 target.speed.toNat) <|
            layout.closeBlock 1 rest

def targetText (target : TargetText) (rest : List Char) : List Char :=
  Keyword.target.chars ++ (layout.blank.chars ++ (target.oid.text.chars ++
    (layout.blank.chars ++ layout.rowText target rest)))

def hostText (host : HostText) (rest : List Char) : List Char :=
  Keyword.host.chars ++ (layout.blank.chars ++ (host.name.text.chars ++ (layout.blank.chars ++
    layout.openBlock 1 (layout.directive 1 Keyword.community.chars host.community.text.chars
      (layout.directive 1 Keyword.snmpver.chars (printInt host.snmpver)
        (host.targets.foldr layout.targetText (layout.closeBlock 0 rest)))))))

/-- The text of a whole file. -/
def render (hosts : List HostText) : List Char := hosts.foldr layout.hostText []

end Layout

/-! ## Words and arguments -/

section Words

variable {word rest : List Char}

theorem Gap.ends (gap : Gap) (rest : List Char) :
    Ends (fun char => !isspace char) (gap.chars ++ rest) := by
  cases hchars : gap.chars with
  | nil => exact absurd hchars gap.nonempty
  | cons first tail =>
      refine ends_cons ?_ _
      have hfirst := gap.spaces first (hchars ▸ List.mem_cons_self)
      simp [hfirst]

theorem scanWord_gap (gap : Gap) (rest : List Char) :
    scanWord (gap.chars ++ rest) = scanWord rest := by
  unfold scanWord
  rw [scanString_gap gap.spaces]

theorem scanWord_word (hne : word ≠ []) (hword : ∀ char ∈ word, isspace char = false)
    (hlength : word.length ≤ 512) (hends : Ends (fun char => !isspace char) rest) :
    scanWord (word ++ rest) = some (strclean (strtolower (CString.ofMemory word)), rest) := by
  unfold scanWord
  rw [scanString_word hne hword hlength (Or.inr hends)]
  rfl

/-- A word that is read as it is written. -/
def PlainWord (word : CString) : Prop :=
  word.chars ≠ [] ∧ (∀ char ∈ word.chars, isspace char = false) ∧ word.chars.length ≤ 512 ∧
    strclean (strtolower word) = word

instance (word : CString) : Decidable (PlainWord word) := by
  unfold PlainWord
  infer_instance

theorem scanWord_plain {word : CString} (hplain : PlainWord word) (gap : Gap)
    (rest : List Char) :
    scanWord (word.chars ++ (gap.chars ++ rest)) = some (word, gap.chars ++ rest) := by
  obtain ⟨hne, hspace, hlength, hclean⟩ := hplain
  rw [scanWord_word hne hspace hlength (gap.ends rest), CString.ofMemory_chars, hclean]

/-- A semicolon that an argument has left behind reads as an empty word. -/
theorem scanWord_semicolon (gap : Gap) (rest : List Char) :
    scanWord (';' :: (gap.chars ++ rest)) = some (⟨[], by decide⟩, gap.chars ++ rest) := by
  have hscan := @scanWord_word [';'] _ (by simp) (by decide) (by decide) (gap.ends rest)
  exact hscan

theorem strclean_semicolon {text : CString} (hsemicolon : ';' ∉ text.chars) :
    strclean (CString.ofMemory (text.chars ++ [';'])) = text := by
  have hnul : ∀ char ∈ text.chars, decide (char ≠ '\x00') = true := by
    intro char hchar
    refine decide_eq_true ?_
    rintro rfl
    exact text.noNul hchar
  have hother : ∀ char ∈ text.chars, decide (char ≠ ';') = true := by
    intro char hchar
    refine decide_eq_true ?_
    rintro rfl
    exact hsemicolon hchar
  refine CString.ext ?_
  change ((text.chars ++ [';']).takeWhile _).takeWhile _ = text.chars
  rw [List.takeWhile_append_of_pos hnul, List.takeWhile_cons_of_pos (by decide),
    List.takeWhile_nil, List.takeWhile_append_of_pos hother, List.takeWhile_cons_of_neg (by decide),
    List.append_nil]

/-- An argument is read up to its semicolon; the semicolon stays if the buffer
is full. -/
theorem scanArgument_directive (blank gap : Gap) (argument : Argument) (rest : List Char) :
    ∃ after, scanArgument (blank.chars ++ (argument.text.chars ++ ';' :: (gap.chars ++ rest))) =
        (some argument.text, after) ∧
      (after = gap.chars ++ rest ∨ after = ';' :: (gap.chars ++ rest)) := by
  rcases Nat.lt_or_eq_of_le argument.fits with hshort | hfull
  · refine ⟨gap.chars ++ rest, ?_, Or.inl rfl⟩
    have hspace : ∀ char ∈ argument.text.chars ++ [';'], isspace char = false := by
      intro char hchar
      rcases List.mem_append.mp hchar with hchar | hchar
      · exact argument.noSpace char hchar
      · rw [List.mem_singleton.mp hchar]
        decide
    have hlength : (argument.text.chars ++ [';']).length ≤ 128 := by
      rw [List.length_append, List.length_singleton]
      exact hshort
    have hscan := scanString_word (by simp) hspace hlength (Or.inr (gap.ends rest))
    rw [List.append_assoc, List.singleton_append] at hscan
    unfold scanArgument
    rw [scanString_gap blank.spaces, hscan]
    simp only [strclean_semicolon argument.noSemicolon]
  · refine ⟨';' :: (gap.chars ++ rest), ?_, Or.inr rfl⟩
    unfold scanArgument
    rw [scanString_gap blank.spaces, scanString_word argument.nonempty argument.noSpace
      argument.fits (Or.inl hfull)]
    simp only [CString.ofMemory_chars, strclean, CString.endAt_of_notMem argument.noSemicolon]

/-- An argument in front of white space is read whole. -/
theorem scanArgument_word (blank gap : Gap) (argument : Argument) (rest : List Char) :
    scanArgument (blank.chars ++ (argument.text.chars ++ (gap.chars ++ rest))) =
      (some argument.text, gap.chars ++ rest) := by
  unfold scanArgument
  rw [scanString_gap blank.spaces, scanString_word argument.nonempty argument.noSpace
    argument.fits (Or.inr (gap.ends rest))]
  simp only [CString.ofMemory_chars, strclean, CString.endAt_of_notMem argument.noSemicolon]

theorem ends_semicolon (rest : List Char) : Ends Char.isDigit (';' :: rest) :=
  ends_cons (by decide) rest

end Words

/-! ## `read_row` -/

section Row

variable {unspecified : Unspecified} {conf : Rtgconf} {row : Queryrow} {rest : List Char}

theorem rowLoop_congr {first second : List Char}
    (hscan : scanRow unspecified first = scanRow unspecified second) :
    rowLoop unspecified conf row first = rowLoop unspecified conf row second := by
  cases hsecond : scanRow unspecified second with
  | none => rw [rowLoop_end hsecond, rowLoop_end (hscan.trans hsecond)]
  | some read =>
      obtain ⟨directive, rest⟩ := read
      cases directive with
      | none => rw [rowLoop_close hsecond, rowLoop_close (hscan.trans hsecond)]
      | some directive => rw [rowLoop_step hsecond, rowLoop_step (hscan.trans hsecond)]

theorem rowLoop_gap (gap : Gap) :
    rowLoop unspecified conf row (gap.chars ++ rest) = rowLoop unspecified conf row rest :=
  rowLoop_congr (by rw [scanRow, scanRow, scanWord_gap])

theorem rowLoop_semicolon (gap : Gap) :
    rowLoop unspecified conf row (';' :: (gap.chars ++ rest)) =
      rowLoop unspecified conf row rest := by
  have hscan : scanRow unspecified (';' :: (gap.chars ++ rest)) =
      some (some .other, gap.chars ++ rest) := by
    rw [scanRow, scanWord_semicolon]
    rfl
  rw [rowLoop_step hscan]
  exact rowLoop_gap gap

/-- Behind a directive the reader is at the next word, whether or not it has
read the semicolon. -/
theorem rowLoop_after {gap : Gap} {after : List Char}
    (hafter : after = gap.chars ++ rest ∨ after = ';' :: (gap.chars ++ rest)) :
    rowLoop unspecified conf row after = rowLoop unspecified conf row rest := by
  rcases hafter with rfl | rfl
  · exact rowLoop_gap gap
  · exact rowLoop_semicolon gap

theorem scanRow_keyword {word : CString} (hplain : PlainWord word) (gap : Gap) :
    scanRow unspecified (word.chars ++ (gap.chars ++ rest)) =
      some (rowTurn unspecified word (gap.chars ++ rest)) := by
  rw [scanRow, scanWord_plain hplain]
  rfl

theorem rowLoop_bits (layout : Layout) (depth : Nat) (value : UInt32) :
    rowLoop unspecified conf row
        (layout.directive depth Keyword.bits.chars (Nat.toDigits 10 value.toNat) rest) =
      rowLoop unspecified conf { row with bits := value } rest := by
  have hscan : scanRow unspecified
      (layout.directive depth Keyword.bits.chars (Nat.toDigits 10 value.toNat) rest) =
        some (some (.bits (some value)), ';' :: ((layout.line depth).chars ++ rest)) := by
    rw [Layout.directive, scanRow_keyword (by decide), rowTurn, if_neg (by decide),
      if_pos rfl, scanUnsigned_digits layout.blank.spaces value (ends_semicolon _)]
  rw [rowLoop_step hscan]
  exact rowLoop_semicolon _

theorem rowLoop_id (layout : Layout) (depth : Nat) (value : UInt32) :
    rowLoop unspecified conf row
        (layout.directive depth Keyword.id.chars (Nat.toDigits 10 value.toNat) rest) =
      rowLoop unspecified conf { row with id := value } rest := by
  have hscan : scanRow unspecified
      (layout.directive depth Keyword.id.chars (Nat.toDigits 10 value.toNat) rest) =
        some (some (.id (some value)), ';' :: ((layout.line depth).chars ++ rest)) := by
    rw [Layout.directive, scanRow_keyword (by decide), rowTurn, if_neg (by decide),
      if_neg (by decide), if_neg (by decide), if_pos rfl,
      scanUnsigned_digits layout.blank.spaces value (ends_semicolon _)]
  rw [rowLoop_step hscan]
  exact rowLoop_semicolon _

theorem rowLoop_table (layout : Layout) (depth : Nat) (value : Argument) :
    rowLoop unspecified conf row
        (layout.directive depth Keyword.table.chars value.text.chars rest) =
      rowLoop unspecified conf { row with table := some value.text } rest := by
  obtain ⟨after, hargument, hafter⟩ :=
    scanArgument_directive layout.blank (layout.line depth) value rest
  have hscan : scanRow unspecified
      (layout.directive depth Keyword.table.chars value.text.chars rest) =
        some (some (.table (some value.text)), after) := by
    rw [Layout.directive, scanRow_keyword (by decide), rowTurn, if_neg (by decide),
      if_neg (by decide), if_pos rfl, hargument]
  rw [rowLoop_step hscan]
  exact rowLoop_after hafter

/-- The speed limit of a row: that of a gauge as it is, that of a counter for
one interval. -/
def speedOf (conf : Rtgconf) (bits : UInt32) (speed : UInt64) : UInt64 :=
  if bits = 0 then speed else speed / conf.interval.toUInt64

theorem rowLoop_speed (hinterval : conf.interval ≠ 0) (layout : Layout) (depth : Nat)
    (value : UInt64) :
    rowLoop unspecified conf row
        (layout.directive depth Keyword.speed.chars (Nat.toDigits 10 value.toNat) rest) =
      rowLoop unspecified conf { row with speed := speedOf conf row.bits value } rest := by
  have hscan : scanRow unspecified
      (layout.directive depth Keyword.speed.chars (Nat.toDigits 10 value.toNat) rest) =
        some (some (.speed value), ';' :: ((layout.line depth).chars ++ rest)) := by
    rw [Layout.directive, scanRow_keyword (by decide), rowTurn, if_neg (by decide),
      if_neg (by decide), if_neg (by decide), if_neg (by decide), if_pos rfl,
      scanUnsignedLongLong_digits layout.blank.spaces value (ends_semicolon _)]
    rfl
  have happly : RowDirective.apply conf row (.speed value) =
      .ok { row with speed := speedOf conf row.bits value } := by
    simp only [RowDirective.apply, speedOf, hinterval, if_false]
    split <;> rfl
  rw [rowLoop_step hscan, happly]
  exact rowLoop_semicolon _

theorem rowLoop_open (layout : Layout) (depth : Nat) :
    rowLoop unspecified conf row (layout.openBlock depth rest) =
      rowLoop unspecified conf row rest := by
  have hscan : scanRow unspecified (layout.openBlock depth rest) =
      some (some .other, (layout.line depth).chars ++ rest) :=
    @scanRow_keyword unspecified rest ⟨['\x7b'], by decide⟩ (by decide) (layout.line depth)
  rw [rowLoop_step hscan]
  exact rowLoop_gap _

theorem scanWord_close (layout : Layout) (depth : Nat) (rest : List Char) :
    scanWord (layout.closeBlock depth rest) =
      some (Keyword.close, (layout.line depth).chars ++ rest) :=
  @scanWord_word ['\x7d', ';'] _ (by simp) (by decide) (by decide)
    ((layout.line depth).ends rest)

theorem rowLoop_closeBlock (layout : Layout) (depth : Nat) :
    rowLoop unspecified conf row (layout.closeBlock depth rest) =
      .ok (row, (layout.line depth).chars ++ rest) := by
  apply rowLoop_close
  rw [scanRow, scanWord_close]
  rfl

/-- The row that a target stands for. -/
def rowOf (conf : Rtgconf) (target : TargetText) : Queryrow where
  oid := some target.oid.text
  table := some target.table.text
  id := target.id
  bits := target.bits
  speed := speedOf conf target.bits target.speed
  cachedCounter := 0
  cachedTime := 0

/-- `read_row` reads a target's block up to the end of its last line. -/
theorem readRow_text (hinterval : conf.interval ≠ 0) (layout : Layout) (target : TargetText) :
    readRow unspecified conf target.oid.text (layout.rowText target rest) =
      .ok (rowOf conf target, (layout.line 1).chars ++ rest) := by
  rw [readRow, Layout.rowText, rowLoop_open, rowLoop_bits, rowLoop_table, rowLoop_id,
    rowLoop_speed hinterval, rowLoop_closeBlock]
  rfl

end Row

/-! ## `read_host` -/

section Host

variable {unspecified : Unspecified} {conf : Rtgconf} {host : Queryhost} {rest : List Char}

theorem hostLoop_congr {first second : List Char} (hscan : scanHost first = scanHost second) :
    hostLoop unspecified conf host first = hostLoop unspecified conf host second := by
  cases hsecond : scanHost second with
  | none => rw [hostLoop_end hsecond, hostLoop_end (hscan.trans hsecond)]
  | some read =>
      obtain ⟨directive, rest⟩ := read
      have hfirst := hscan.trans hsecond
      cases directive with
      | none => rw [hostLoop_close hsecond, hostLoop_close hfirst]
      | some directive =>
          cases directive with
          | community text => rw [hostLoop_community hsecond, hostLoop_community hfirst]
          | snmpver value => rw [hostLoop_snmpver hsecond, hostLoop_snmpver hfirst]
          | target text => rw [hostLoop_target hsecond, hostLoop_target hfirst]
          | other => rw [hostLoop_other hsecond, hostLoop_other hfirst]

theorem hostLoop_gap (gap : Gap) :
    hostLoop unspecified conf host (gap.chars ++ rest) = hostLoop unspecified conf host rest :=
  hostLoop_congr (by rw [scanHost, scanHost, scanWord_gap])

theorem hostLoop_semicolon (gap : Gap) :
    hostLoop unspecified conf host (';' :: (gap.chars ++ rest)) =
      hostLoop unspecified conf host rest := by
  have hscan : scanHost (';' :: (gap.chars ++ rest)) = some (some .other, gap.chars ++ rest) := by
    rw [scanHost, scanWord_semicolon]
    rfl
  rw [hostLoop_other hscan]
  exact hostLoop_gap gap

theorem hostLoop_after {gap : Gap} {after : List Char}
    (hafter : after = gap.chars ++ rest ∨ after = ';' :: (gap.chars ++ rest)) :
    hostLoop unspecified conf host after = hostLoop unspecified conf host rest := by
  rcases hafter with rfl | rfl
  · exact hostLoop_gap gap
  · exact hostLoop_semicolon gap

theorem scanHost_keyword {word : CString} (hplain : PlainWord word) (gap : Gap) :
    scanHost (word.chars ++ (gap.chars ++ rest)) = some (hostTurn word (gap.chars ++ rest)) := by
  rw [scanHost, scanWord_plain hplain]
  rfl

theorem hostLoop_communityText (layout : Layout) (depth : Nat) (value : Argument) :
    hostLoop unspecified conf host
        (layout.directive depth Keyword.community.chars value.text.chars rest) =
      hostLoop unspecified conf { host with community := some value.text } rest := by
  obtain ⟨after, hargument, hafter⟩ :=
    scanArgument_directive layout.blank (layout.line depth) value rest
  have hscan : scanHost
      (layout.directive depth Keyword.community.chars value.text.chars rest) =
        some (some (.community (some value.text)), after) := by
    rw [Layout.directive, scanHost_keyword (by decide), hostTurn, if_neg (by decide),
      if_pos rfl, hargument]
  rw [hostLoop_community hscan]
  exact hostLoop_after hafter

theorem hostLoop_snmpverText (layout : Layout) (depth : Nat) {value : Int}
    (hlower : -2 ^ 31 ≤ value) (hupper : value < 2 ^ 31) :
    hostLoop unspecified conf host
        (layout.directive depth Keyword.snmpver.chars (printInt value) rest) =
      hostLoop unspecified conf { host with snmpver := value } rest := by
  have hscan : scanHost (layout.directive depth Keyword.snmpver.chars (printInt value) rest) =
      some (some (.snmpver (some value)), ';' :: ((layout.line depth).chars ++ rest)) := by
    rw [Layout.directive, scanHost_keyword (by decide), hostTurn, if_neg (by decide),
      if_neg (by decide), if_pos rfl,
      scanInt_printInt layout.blank.spaces hlower hupper (ends_semicolon _)]
  rw [hostLoop_snmpver hscan]
  exact hostLoop_semicolon _

theorem hostLoop_open (layout : Layout) (depth : Nat) :
    hostLoop unspecified conf host (layout.openBlock depth rest) =
      hostLoop unspecified conf host rest := by
  have hscan : scanHost (layout.openBlock depth rest) =
      some (some .other, (layout.line depth).chars ++ rest) :=
    @scanHost_keyword rest ⟨['\x7b'], by decide⟩ (by decide) (layout.line depth)
  rw [hostLoop_other hscan]
  exact hostLoop_gap _

theorem hostLoop_closeBlock (layout : Layout) (depth : Nat) :
    hostLoop unspecified conf host (layout.closeBlock depth rest) =
      .ok (host, (layout.line depth).chars ++ rest) := by
  apply hostLoop_close
  rw [scanHost, scanWord_close]
  rfl

theorem named_rowOf (conf : Rtgconf) (target : TargetText) : Named (rowOf conf target) :=
  ⟨rfl, rfl⟩

theorem hostLoop_targetText (hinterval : conf.interval ≠ 0) (layout : Layout)
    (target : TargetText) (hrows : ∀ row ∈ host.rows, Named row) :
    hostLoop unspecified conf host (layout.targetText target rest) =
      hostLoop unspecified conf (addRow host (rowOf conf target)) rest := by
  have hscan : scanHost (layout.targetText target rest) =
      some (some (.target (some target.oid.text)),
        layout.blank.chars ++ layout.rowText target rest) := by
    rw [Layout.targetText, scanHost_keyword (by decide), hostTurn, if_neg (by decide),
      if_neg (by decide), if_neg (by decide), if_pos rfl,
      scanArgument_word layout.blank layout.blank]
  have hrow : readRow unspecified conf target.oid.text
      (layout.blank.chars ++ layout.rowText target rest) =
        .ok (rowOf conf target, (layout.line 1).chars ++ rest) := by
    rw [← readRow_text hinterval layout target]
    exact rowLoop_gap layout.blank
  rw [hostLoop_target hscan]
  simp only [strdupArgument, ok_bind, hrow, addTarget_named hrows (named_rowOf conf target)]
  exact hostLoop_gap _

/-- All targets of a host, one after another. -/
theorem hostLoop_targets (hinterval : conf.interval ≠ 0) (layout : Layout)
    (targets : List TargetText) (hrows : ∀ row ∈ host.rows, Named row) :
    hostLoop unspecified conf host (targets.foldr layout.targetText rest) =
      hostLoop unspecified conf ((targets.map (rowOf conf)).foldl addRow host) rest := by
  induction targets generalizing host with
  | nil => rfl
  | cons target targets ih =>
      rw [List.foldr_cons, hostLoop_targetText hinterval layout target hrows,
        ih (named_addRow hrows (named_rowOf conf target))]
      rfl

/-- The host that a block stands for, but for its rows. -/
def emptyHostOf (host : HostText) : Queryhost where
  host := some host.name.text
  community := some host.community.text
  snmpver := host.snmpver
  rows := []

/-- The host that a block stands for; a target that repeats one is left out. -/
def hostOf (conf : Rtgconf) (host : HostText) : Queryhost :=
  (host.targets.map (rowOf conf)).foldl addRow (emptyHostOf host)

end Host

/-! ## `read_new_style_targets` -/

section File

variable {unspecified : Unspecified} {conf : Rtgconf} {rest : List Char}

theorem scanTop_hostText (layout : Layout) (host : HostText) :
    scanTop (layout.hostText host rest) = some (some host.name.text, layout.blank.chars ++
      layout.openBlock 1 (layout.directive 1 Keyword.community.chars host.community.text.chars
        (layout.directive 1 Keyword.snmpver.chars (printInt host.snmpver)
          (host.targets.foldr layout.targetText (layout.closeBlock 0 rest))))) := by
  have hname : ∀ tail, scanName Keyword.host
      (layout.blank.chars ++ (host.name.text.chars ++ (layout.blank.chars ++ tail))) =
        (host.name.text, layout.blank.chars ++ tail) := by
    intro tail
    unfold scanName
    rw [scanString_gap layout.blank.spaces, scanString_word host.name.nonempty host.name.noSpace
      host.name.fits (Or.inr (layout.blank.ends tail))]
    simp only [CString.ofMemory_chars]
  rw [scanTop, Layout.hostText, scanWord_plain (by decide), Option.map_some]
  simp only [topTurn, hname]
  rfl

theorem readHost_text (hinterval : conf.interval ≠ 0) (layout : Layout) (host : HostText) :
    readHost unspecified conf host.name.text (layout.blank.chars ++
      layout.openBlock 1 (layout.directive 1 Keyword.community.chars host.community.text.chars
        (layout.directive 1 Keyword.snmpver.chars (printInt host.snmpver)
          (host.targets.foldr layout.targetText (layout.closeBlock 0 rest))))) =
      .ok (hostOf conf host, (layout.line 0).chars ++ rest) := by
  rw [readHost, hostLoop_gap, hostLoop_open, hostLoop_communityText,
    hostLoop_snmpverText _ _ host.snmpver_lower host.snmpver_upper,
    hostLoop_targets hinterval layout host.targets (by simp [queryhostCreate]),
    hostLoop_closeBlock]
  rfl

theorem targetsLoop_gap (gap : Gap) (targets : Rtgtargets) :
    targetsLoop unspecified conf targets (gap.chars ++ rest) =
      targetsLoop unspecified conf targets rest := by
  have hscan : scanTop (gap.chars ++ rest) = scanTop rest := by
    rw [scanTop, scanTop, scanWord_gap]
  cases hrest : scanTop rest with
  | none => rw [targetsLoop_end hrest, targetsLoop_end (hscan.trans hrest)]
  | some read =>
      obtain ⟨name, after⟩ := read
      cases name with
      | none => rw [targetsLoop_other hrest, targetsLoop_other (hscan.trans hrest)]
      | some name => rw [targetsLoop_host hrest, targetsLoop_host (hscan.trans hrest)]

/-- The hosts of a written file, pushed one after another. -/
theorem targetsLoop_render (hinterval : conf.interval ≠ 0) (layout : Layout)
    (hosts : List HostText) (targets : Rtgtargets) :
    targetsLoop unspecified conf targets (layout.render hosts) =
      .ok ((hosts.map (hostOf conf)).foldl Rtgtargets.pushHost targets) := by
  induction hosts generalizing targets with
  | nil =>
      apply targetsLoop_end
      rfl
  | cons host hosts ih =>
      rw [Layout.render, List.foldr_cons, targetsLoop_host (scanTop_hostText layout host),
        readHost_text hinterval, ok_bind, targetsLoop_gap]
      exact ih _

end File

end ClusteredPoller.Targets
