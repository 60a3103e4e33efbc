import PlugAgente.CapturedOutput.Agreement
import PlugAgente.Dart.Double
import PlugAgente.Wire.Json

/-!
# Paging of captured output

`agent.action.getExecution` answers a window of stdout and one of stderr.  A client that starts at
offset 0 and asks for `next_offset` while `response_truncated` is true reads the text page by page;
`Reads` are its answers.  The page that starts at a border of the text holds the longest run of
characters that fits `max_output_bytes`, without a byte order mark at its front.

`pages_lossless_iff`: the pages go forward and join to the text exactly when every page has room
for its first character and that character is no byte order mark.
-/

namespace PlugAgente.CapturedOutput

open Dart Dart.Utf8 Wire

/-! ## Whole numbers of JSON -/

/-- `jsonWholeNumberAsInt`; `toInt` of a double ends at the integers of 64 bits. -/
def jsonWholeNumberAsInt : Json Double → Option Int
  | .int n => some n
  | .other (.finite q) =>
    if q.den = 1 then some (clamp q.num (-2 ^ 63) (2 ^ 63 - 1)) else none
  | _ => none

def jsonPositiveInt (value : Json Double) : Option Int :=
  (jsonWholeNumberAsInt value).filter fun n => 1 ≤ n

def jsonNonNegativeInt (value : Json Double) : Option Int :=
  (jsonWholeNumberAsInt value).filter fun n => 0 ≤ n

/-! ## The options of a request -/

def defaultMaxOutputBytesPerStream : Int := 65536

def maxMaxOutputBytesPerStream : Int := 524288

def resolveMaxOutputBytesPerStream (requested : Option Int) : Int :=
  let value := requested.getD defaultMaxOutputBytesPerStream
  if value < 1 then defaultMaxOutputBytesPerStream
  else if maxMaxOutputBytesPerStream < value then maxMaxOutputBytesPerStream
  else value

structure AgentActionExecutionOutputPaging where
  stdoutOffsetUtf8 : Int := 0
  stderrOffsetUtf8 : Int := 0
  maxOutputBytesPerStream : Int := defaultMaxOutputBytesPerStream

/-- What paging reads of `AgentActionCapturePolicy`. -/
structure AgentActionCapturePolicy where
  captureStdout : Bool := true
  captureStderr : Bool := true

structure AgentActionGetExecutionOutputOptions where
  paging : AgentActionExecutionOutputPaging
  exposeStdout : Bool
  exposeStderr : Bool

/-- `params[key]`. -/
def param (params : Entries Double) (key : String) : Json Double :=
  (params.lookup key).getD .null

def streamOffsetUtf8 (params : Entries Double) (offsetKey cursorKey : String)
    (legacyOutputOffset : Option Int) : Int :=
  (((jsonNonNegativeInt (param params offsetKey)).or
    (jsonNonNegativeInt (param params cursorKey))).or legacyOutputOffset).getD 0

def clientRequestsOutput (params : Entries Double) : Bool :=
  match param params "include_output" with
  | .bool includeOutput => includeOutput
  | _ => true

def resolveAgentActionGetExecutionOutputOptions (params : Entries Double)
    (capturePolicy : Option AgentActionCapturePolicy) : AgentActionGetExecutionOutputOptions :=
  let clientWantsOutput := clientRequestsOutput params
  let policy := capturePolicy.getD {}
  { paging :=
      { stdoutOffsetUtf8 := streamOffsetUtf8 params "stdout_offset" "stdout_cursor"
          (jsonNonNegativeInt (param params "output_offset"))
        stderrOffsetUtf8 := streamOffsetUtf8 params "stderr_offset" "stderr_cursor" none
        maxOutputBytesPerStream := resolveMaxOutputBytesPerStream
          (jsonPositiveInt (param params "max_output_bytes")) }
    exposeStdout := clientWantsOutput && policy.captureStdout
    exposeStderr := clientWantsOutput && policy.captureStderr }

/-! ## The answer -/

/-- The answer for a window. -/
def windowRpcMap (storageTruncated : Bool) (window : CapturedOutputUtf8Window) : Entries Double :=
  [("captured", .bool true), ("truncated", .bool storageTruncated), ("text", .text window.text),
    ("utf8_total_bytes", .int window.totalBytes), ("offset", .int window.effectiveStart),
    ("next_offset", .int window.nextOffset),
    ("response_truncated", .bool window.responseTruncated)]

/-- The answer without a text. -/
def emptyRpcMap (captured storageTruncated : Bool) (offset : Int) : Entries Double :=
  [("captured", .bool captured), ("truncated", .bool storageTruncated),
    ("utf8_total_bytes", .int 0), ("offset", .int offset), ("next_offset", .int offset),
    ("response_truncated", .bool false)]

def buildCapturedOutputRpcMap (captured storageTruncated : Bool) (fullText : Option String)
    (offsetUtf8 maxBytes : Int) (precomputedWindow : Option CapturedOutputUtf8Window) :
    Except FormatException (Entries Double) :=
  if !captured then .ok (emptyRpcMap false storageTruncated 0)
  else
    match precomputedWindow, fullText with
    | some window, _ => .ok (windowRpcMap storageTruncated window)
    | none, some text =>
      (sliceUtf8TextWindow text offsetUtf8 maxBytes).map (windowRpcMap storageTruncated)
    | none, none => .ok (emptyRpcMap true storageTruncated offsetUtf8)

/-! ## The client -/

/-- The two streams of an execution. -/
inductive OutputStream where
  | stdout
  | stderr

namespace OutputStream

def offsetKey : OutputStream → String
  | stdout => "stdout_offset"
  | stderr => "stderr_offset"

/-- The offset of the stream that the paging holds. -/
def offsetOf (paging : AgentActionExecutionOutputPaging) : OutputStream → Int
  | stdout => paging.stdoutOffsetUtf8
  | stderr => paging.stderrOffsetUtf8

end OutputStream

/-- The answer to a request for the stream from an offset on. -/
def answer (stream : OutputStream) (storageTruncated : Bool) (text : String) (offset : Nat)
    (maxOutputBytes : Json Double) : Except FormatException (Entries Double) :=
  let params := [(stream.offsetKey, .int offset), ("max_output_bytes", maxOutputBytes)]
  let paging := (resolveAgentActionGetExecutionOutputOptions params none).paging
  buildCapturedOutputRpcMap true storageTruncated (some text) (stream.offsetOf paging)
    paging.maxOutputBytesPerStream none

/-- What a client reads of an answer. -/
structure Page where
  text : String
  offset : Nat
  nextOffset : Nat
  responseTruncated : Bool

/-- An answer and the page that a client reads of it. -/
def Answers (entries : Entries Double) (page : Page) : Prop :=
  entries.lookup "text" = some (.text page.text) ∧
    entries.lookup "offset" = some (.int page.offset) ∧
    entries.lookup "next_offset" = some (.int page.nextOffset) ∧
    entries.lookup "response_truncated" = some (.bool page.responseTruncated)

/-- The pages of a client that goes on while the answer is truncated; `asks i` is what it sends
for `max_output_bytes` with its request `i`. -/
inductive Reads (stream : OutputStream) (storageTruncated : Bool) (text : String)
    (asks : Nat → Json Double) : Nat → Nat → List Page → Prop where
  | last {i offset : Nat} {entries : Entries Double} {page : Page}
      (hanswer : answer stream storageTruncated text offset (asks i) = .ok entries)
      (hpage : Answers entries page) (hlast : page.responseTruncated = false) :
      Reads stream storageTruncated text asks i offset [page]
  | more {i offset : Nat} {entries : Entries Double} {page : Page} {pages : List Page}
      (hanswer : answer stream storageTruncated text offset (asks i) = .ok entries)
      (hpage : Answers entries page) (hmore : page.responseTruncated = true)
      (hlater : Reads stream storageTruncated text asks (i + 1) page.nextOffset pages) :
      Reads stream storageTruncated text asks i offset (page :: pages)

/-- The client comes to an end, every page goes forward, and the pages join to the text. -/
def LosslessPaging (stream : OutputStream) (storageTruncated : Bool) (text : String)
    (asks : Nat → Json Double) : Prop :=
  ∃ pages, Reads stream storageTruncated text asks 0 0 pages ∧
    (∀ page ∈ pages, page.offset < page.nextOffset) ∧ String.join (pages.map Page.text) = text

/-- The bytes that a request allows. -/
def windowSize (maxOutputBytes : Json Double) : Nat :=
  (resolveMaxOutputBytesPerStream (jsonPositiveInt maxOutputBytes)).toNat

/-- What is left of a text after `i` windows, each as long as its request allows. -/
def left (asks : Nat → Json Double) (cs : List Char) : Nat → List Char
  | 0 => cs
  | i + 1 => rest (left asks cs i) (windowSize (asks i))

/-- The next character of the text is no byte order mark and fits its window, and the end of the
window is an integer of 64 bits. -/
def HasRoom (asks : Nat → Json Double) (cs : List Char) (i : Nat) : Prop :=
  ∀ c ∈ (left asks cs i).head?, c ≠ byteOrderMark ∧ c.utf8Size ≤ windowSize (asks i) ∧
    size cs + windowSize (asks i) < 2 ^ 63 + size (left asks cs i)

/-! ## One page -/

section Page

variable {stream : OutputStream} {storageTruncated : Bool} {text : String}

theorem resolveMaxOutputBytesPerStream_bounds (requested : Option Int) :
    1 ≤ resolveMaxOutputBytesPerStream requested ∧
      resolveMaxOutputBytesPerStream requested ≤ 524288 := by
  unfold resolveMaxOutputBytesPerStream defaultMaxOutputBytesPerStream maxMaxOutputBytesPerStream
  dsimp only
  split_ifs <;> omega

theorem windowSize_eq (maxOutputBytes : Json Double) :
    (windowSize maxOutputBytes : Int) =
      resolveMaxOutputBytesPerStream (jsonPositiveInt maxOutputBytes) := by
  have h := (resolveMaxOutputBytesPerStream_bounds (jsonPositiveInt maxOutputBytes)).1
  rw [windowSize]
  omega

theorem windowSize_le (maxOutputBytes : Json Double) : windowSize maxOutputBytes ≤ 524288 := by
  have h := (resolveMaxOutputBytesPerStream_bounds (jsonPositiveInt maxOutputBytes)).2
  rw [windowSize]
  omega

theorem answer_eq (stream : OutputStream) (storageTruncated : Bool) (text : String) (offset : Nat)
    (maxOutputBytes : Json Double) :
    answer stream storageTruncated text offset maxOutputBytes =
      (sliceUtf8TextWindow text offset (windowSize maxOutputBytes)).map
        (windowRpcMap storageTruncated) := by
  have hoffset : jsonNonNegativeInt (.int offset) = some (offset : Int) := by
    simp [jsonNonNegativeInt, jsonWholeNumberAsInt]
  rw [windowSize_eq]
  cases stream <;>
    simp [answer, resolveAgentActionGetExecutionOutputOptions, streamOffsetUtf8, param,
      OutputStream.offsetKey, OutputStream.offsetOf, buildCapturedOutputRpcMap, hoffset,
      List.lookup_cons]

theorem answers_windowRpcMap_iff {window : CapturedOutputUtf8Window} {page : Page} :
    Answers (windowRpcMap storageTruncated window) page ↔
      page = { text := window.text, offset := window.effectiveStart,
               nextOffset := window.nextOffset,
               responseTruncated := window.responseTruncated } := by
  obtain ⟨text, offset, nextOffset, responseTruncated⟩ := page
  simp [Answers, windowRpcMap, List.lookup_cons, eq_comm]

/-- The window from a border on: the longest run of characters that fits, without a mark at its
front. -/
theorem sliceUtf8TextWindow_border {before cs : List Char} (htext : before ++ cs = text.toList)
    (hne : cs ≠ []) {n : Nat} (hn : size before + n < 2 ^ 63) :
    sliceUtf8TextWindow text (size before) n = .ok
      { text := String.ofList (dropMark (fit cs n)), nextOffset := size before + size (fit cs n)
        totalBytes := size text.toList
        responseTruncated := size before + size (fit cs n) < size text.toList
        effectiveStart := size before } := by
  have hpos := size_pos hne
  have hsize := congrArg size htext
  rw [size_append] at hsize
  have hfit : fit text.toList (size before) = before := by
    rw [← htext, fit_append_of_le le_rfl, fit_size]
  have hrest : rest text.toList (size before) = cs := by
    have h := fit_append_rest text.toList (size before)
    rw [hfit] at h
    exact List.append_cancel_left (h.trans htext.symm)
  have hwindow := sliceUtf8TextWindow_eq text (n := n)
    (clamp_of_mem (by omega) (by omega) : clamp (size before : Int) 0 (size text.toList) = _)
    (by omega) (by rw [hfit]; exact hn)
  rwa [hfit, hrest] at hwindow

theorem sliceUtf8TextWindow_border_wrapped {before cs : List Char}
    (htext : before ++ cs = text.toList) (hne : cs ≠ []) (hsize : size text.toList < 2 ^ 63)
    {n : Nat} (hle : n ≤ 524288) (hn : 2 ^ 63 ≤ size before + n) :
    ∃ window, sliceUtf8TextWindow text (size before) n = .ok window ∧
      window.effectiveStart = window.nextOffset := by
  have hpos := size_pos hne
  have hparts := congrArg size htext
  rw [size_append] at hparts
  have hfit : fit text.toList (size before) = before := by
    rw [← htext, fit_append_of_le le_rfl, fit_size]
  refine ⟨_, sliceUtf8TextWindow_wrapped text
    (clamp_of_mem (by omega) (by omega) : clamp (size before : Int) 0 (size text.toList) = _)
    (by omega) ?_, rfl⟩
  rw [hfit]
  exact add64_of_le (by omega) (by omega) hn

end Page

/-! ## Whole runs -/

section Run

variable {stream : OutputStream} {storageTruncated : Bool} {text : String}
  {asks : Nat → Json Double}

theorem reads_of_hasRoom (stream : OutputStream) (storageTruncated : Bool) {i : Nat}
    (before : List Char) (htext : before ++ left asks text.toList i = text.toList)
    (hne : left asks text.toList i ≠ [])
    (hroom : ∀ j, HasRoom asks text.toList j) :
    ∃ pages, Reads stream storageTruncated text asks i (size before) pages ∧
      (∀ page ∈ pages, page.offset < page.nextOffset) ∧
      (String.join (pages.map Page.text)).toList = left asks text.toList i := by
  induction hlength : (left asks text.toList i).length using Nat.strong_induction_on
    generalizing i before with
  | _ length ih =>
    have hsize := congrArg size htext
    rw [size_append] at hsize
    have hleft : left asks text.toList (i + 1) =
        rest (left asks text.toList i) (windowSize (asks i)) := rfl
    have hwindow := sliceUtf8TextWindow_border (n := windowSize (asks i)) htext hne
    obtain ⟨c, cs, hcs⟩ := List.exists_cons_of_ne_nil hne
    obtain ⟨hmark, hfits, hend⟩ := hroom i c (by rw [hcs]; rfl)
    have hwindow := hwindow (by omega)
    rw [hcs] at hwindow hleft hsize
    rw [fit_cons_of_le hfits, dropMark_of_ne (by simpa using hmark)] at hwindow
    have hparts := size_fit_add_rest (c :: cs) (windowSize (asks i))
    have hcut := fit_append_rest (c :: cs) (windowSize (asks i))
    rw [fit_cons_of_le hfits] at hparts hcut
    rw [← hleft] at hparts hcut
    have hfirst : 0 < size (c :: fit cs (windowSize (asks i) - c.utf8Size)) :=
      size_pos (List.cons_ne_nil _ _)
    have hanswer := answer_eq stream storageTruncated text (size before) (asks i)
    rw [hwindow] at hanswer
    by_cases hend' : left asks text.toList (i + 1) = []
    · rw [hend', size_nil] at hparts
      refine ⟨_, Reads.last hanswer (answers_windowRpcMap_iff.mpr rfl)
        (decide_eq_false (by omega)), ?_, ?_⟩
      · simpa using hfirst
      · rw [hend', List.append_nil] at hcut
        simp [hcut, hcs]
    · have hpos := size_pos hend'
      have hshorter : (left asks text.toList (i + 1)).length < length := by
        have := congrArg List.length hcut
        rw [List.length_append, List.length_cons, ← hcs, hlength] at this
        omega
      have htext' : (before ++ c :: fit cs (windowSize (asks i) - c.utf8Size)) ++
          left asks text.toList (i + 1) = text.toList := by
        rw [List.append_assoc, hcut, ← hcs, htext]
      obtain ⟨pages, hreads, hforward, hjoin⟩ := ih _ hshorter _ htext' hend' rfl
      rw [size_append] at hreads
      refine ⟨_, Reads.more hanswer (answers_windowRpcMap_iff.mpr rfl)
        (decide_eq_true (by omega)) hreads, ?_, ?_⟩
      · rintro page (_ | ⟨_, hpage⟩)
        · simpa using hfirst
        · exact hforward page hpage
      · rw [String.toList_join] at hjoin
        rw [String.toList_join, List.map_cons, List.flatMap_cons, hjoin, String.toList_ofList,
          hcut, hcs]

/-- A page that goes forward has room for its first character; only a byte order mark at its front
is lost. -/
theorem page_of_forward (hsize : size text.toList < 2 ^ 63) {i : Nat} {before : List Char}
    (htext : before ++ left asks text.toList i = text.toList)
    (hne : left asks text.toList i ≠ []) {entries : Entries Double} {page : Page}
    (hanswer : answer stream storageTruncated text (size before) (asks i) = .ok entries)
    (hpage : Answers entries page) (hforward : page.offset < page.nextOffset) :
    size before + windowSize (asks i) < 2 ^ 63 ∧
      page = { text := String.ofList (dropMark
                 (fit (left asks text.toList i) (windowSize (asks i))))
               offset := size before
               nextOffset := size before +
                 size (fit (left asks text.toList i) (windowSize (asks i)))
               responseTruncated := decide (size before +
                 size (fit (left asks text.toList i) (windowSize (asks i))) <
                   size text.toList) } := by
  rw [answer_eq] at hanswer
  by_cases hend : size before + windowSize (asks i) < 2 ^ 63
  · rw [sliceUtf8TextWindow_border htext hne hend] at hanswer
    obtain rfl := Except.ok.inj hanswer
    exact ⟨hend, answers_windowRpcMap_iff.mp hpage⟩
  · obtain ⟨window, hwindow, hstays⟩ := sliceUtf8TextWindow_border_wrapped htext hne hsize
      (windowSize_le (asks i)) (by omega)
    rw [hwindow] at hanswer
    obtain rfl := Except.ok.inj hanswer
    obtain rfl := answers_windowRpcMap_iff.mp hpage
    dsimp only at hforward
    omega

theorem left_eq_nil {i j : Nat} (h : left asks text.toList i = []) (hij : i ≤ j) :
    left asks text.toList j = [] := by
  induction hij with
  | refl => exact h
  | step _ ih =>
    rw [left, ih]
    rfl

theorem hasRoom_of_whole {i : Nat} {before : List Char}
    (htext : before ++ left asks text.toList i = text.toList)
    (hend : size before + windowSize (asks i) < 2 ^ 63)
    (hforward : 0 < size (fit (left asks text.toList i) (windowSize (asks i))))
    (hwhole : size (dropMark (fit (left asks text.toList i) (windowSize (asks i)))) =
      size (fit (left asks text.toList i) (windowSize (asks i)))) :
    HasRoom asks text.toList i := by
  intro c hc
  have hsize := congrArg size htext
  rw [size_append] at hsize
  generalize left asks text.toList i = cs at *
  obtain ⟨cs, rfl⟩ : ∃ more, cs = c :: more := by
    cases cs with
    | nil => cases hc
    | cons d more => exact ⟨more, by rw [show d = c from Option.some.inj hc]⟩
  have hfits : c.utf8Size ≤ windowSize (asks i) := by
    by_contra hlt
    rw [fit_cons_of_lt (by omega), size_nil] at hforward
    omega
  refine ⟨?_, hfits, by omega⟩
  rintro rfl
  have hmark : size (dropMark (fit (byteOrderMark :: cs) (windowSize (asks i)))) + 3 =
      size (fit (byteOrderMark :: cs) (windowSize (asks i))) :=
    dropMark_of_eq (by rw [fit_cons_of_le hfits]; rfl)
  omega

theorem hasRoom_of_reads (hsize : size text.toList < 2 ^ 63) {i offset : Nat} {pages : List Page}
    (h : Reads stream storageTruncated text asks i offset pages) (before : List Char)
    (hoffset : offset = size before)
    (htext : before ++ left asks text.toList i = text.toList)
    (hne : left asks text.toList i ≠ [])
    (hforward : ∀ page ∈ pages, page.offset < page.nextOffset) :
    size (String.join (pages.map Page.text)).toList ≤ size (left asks text.toList i) ∧
      (size (String.join (pages.map Page.text)).toList =
          size (left asks text.toList i) →
        ∀ j, i ≤ j → HasRoom asks text.toList j) := by
  induction h generalizing before with
  | @last i offset entries page hanswer hpage hlast =>
    subst hoffset
    obtain ⟨hend, rfl⟩ := page_of_forward hsize htext hne hanswer hpage
      (hforward _ List.mem_cons_self)
    have hfirst := hforward _ List.mem_cons_self
    dsimp only at hfirst hlast
    have hparts := size_fit_add_rest (left asks text.toList i) (windowSize (asks i))
    have hall := congrArg size htext
    rw [size_append] at hall
    have hlast := of_decide_eq_false hlast
    have hdrop := size_dropMark_le
      (fit (left asks text.toList i) (windowSize (asks i)))
    have hjoin : size (String.join [String.ofList (dropMark
        (fit (left asks text.toList i) (windowSize (asks i))))]).toList =
        size (dropMark (fit (left asks text.toList i) (windowSize (asks i)))) := by
      simp
    simp only [List.map_cons, List.map_nil, hjoin]
    refine ⟨by omega, fun heq j hij => ?_⟩
    rcases hij.eq_or_lt with rfl | hlt
    · exact hasRoom_of_whole htext hend (by omega) (by omega)
    · have hnil : left asks text.toList (i + 1) = [] :=
        size_eq_zero.mp (by rw [left]; omega)
      intro c hc
      rw [left_eq_nil hnil hlt] at hc
      cases hc
  | @more i offset entries page pages hanswer hpage hmore hlater ih =>
    subst hoffset
    obtain ⟨hend, rfl⟩ := page_of_forward hsize htext hne hanswer hpage
      (hforward _ List.mem_cons_self)
    have hfirst := hforward _ List.mem_cons_self
    dsimp only at hfirst hmore
    have hparts := size_fit_add_rest (left asks text.toList i) (windowSize (asks i))
    have hall := congrArg size htext
    rw [size_append] at hall
    have hmore := of_decide_eq_true hmore
    have hdrop := size_dropMark_le
      (fit (left asks text.toList i) (windowSize (asks i)))
    have hcut := fit_append_rest (left asks text.toList i) (windowSize (asks i))
    have hleft : left asks text.toList (i + 1) =
        rest (left asks text.toList i) (windowSize (asks i)) := rfl
    rw [← hleft] at hparts hcut
    have hne' : left asks text.toList (i + 1) ≠ [] := by
      rw [Ne, ← size_eq_zero]
      omega
    obtain ⟨hle, hroom⟩ := ih
      (before ++ fit (left asks text.toList i) (windowSize (asks i)))
      (by rw [size_append]) (by rw [List.append_assoc, hcut, htext]) hne'
      fun page hpage => hforward page (List.mem_cons_of_mem _ hpage)
    rw [String.toList_join] at hle hroom
    rw [String.toList_join, List.map_cons, List.flatMap_cons, String.toList_ofList, size_append]
    refine ⟨by omega, fun heq j hij => ?_⟩
    rcases hij.eq_or_lt with rfl | hlt
    · exact hasRoom_of_whole htext hend (by omega) (by omega)
    · exact hroom (by omega) j hlt

end Run

/-! ## Paging -/

/-- Paging comes to an end, goes forward and joins to the text exactly when the text is not empty
and every window has room for the next character, which is no byte order mark. -/
theorem pages_lossless_iff (stream : OutputStream) (storageTruncated : Bool) (text : String)
    (asks : Nat → Json Double) (hsize : (utf8Encode text).length < 2 ^ 63) :
    LosslessPaging stream storageTruncated text asks ↔
      text ≠ "" ∧ ∀ i, HasRoom asks text.toList i := by
  rw [utf8Encode_eq, length_bytesOf] at hsize
  have hempty : text.toList = [] ↔ text = "" := String.toList_eq_nil_iff
  constructor
  · rintro ⟨pages, hreads, hforward, hjoin⟩
    have hne : text ≠ "" := by
      rintro rfl
      obtain ⟨entries, page, hanswer, hpage, hmem⟩ : ∃ entries page,
          answer stream storageTruncated "" 0 (asks 0) = .ok entries ∧ Answers entries page ∧
            page ∈ pages := by
        cases hreads with
        | last hanswer hpage _ => exact ⟨_, _, hanswer, hpage, List.mem_cons_self⟩
        | more hanswer hpage _ _ => exact ⟨_, _, hanswer, hpage, List.mem_cons_self⟩
      rw [answer_eq, sliceUtf8TextWindow_end "" (by simp [clamp])] at hanswer
      obtain rfl := Except.ok.inj hanswer
      obtain rfl := answers_windowRpcMap_iff.mp hpage
      exact Nat.lt_irrefl _ (hforward _ hmem)
    have hroom := (hasRoom_of_reads hsize hreads [] rfl rfl (mt hempty.mp hne) hforward).2
      (by rw [hjoin]; rfl)
    exact ⟨hne, fun i => hroom i (Nat.zero_le i)⟩
  · rintro ⟨hne, hroom⟩
    obtain ⟨pages, hreads, hforward, hjoin⟩ := reads_of_hasRoom stream storageTruncated (i := 0) []
      rfl (mt hempty.mp hne) hroom
    exact ⟨pages, hreads, hforward, String.toList_inj.mp hjoin⟩

/-- A text of one letter, asked for without a size. -/
theorem pages_lossless_iff_letter :
    LosslessPaging .stdout false "a" (fun _ => .null) ↔
      "a" ≠ "" ∧ ∀ i, HasRoom (fun _ => .null) "a".toList i :=
  pages_lossless_iff .stdout false "a" _ (by
    rw [utf8Encode_eq, length_bytesOf]
    decide)

/-- A client that asks for one byte at a time never comes past a character of three bytes. -/
theorem not_lossless_narrow :
    ¬ LosslessPaging .stdout false (String.ofList ['€']) fun _ => .int 1 := by
  rintro ⟨pages, hreads, hforward, hjoin⟩
  have hroom := (hasRoom_of_reads (by rw [String.toList_ofList]; decide) hreads [] rfl rfl
    (by simp [left]) hforward).2 (by rw [hjoin]; rfl) 0 le_rfl '€' (by simp [left])
  exact absurd hroom.2.1 (by decide)

end PlugAgente.CapturedOutput
