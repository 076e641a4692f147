/-
The mail that the courier hands to `smtp.SendMail`.  A message is cut at its first empty
line, and its head at the line ends; header lines without a carriage return come back as
they were put together, whatever the body is.
-/
import Aegion.ByteText

namespace Aegion

namespace MailText

abbrev Text := List Char

def crlf : Text := ['\r', '\n']

/-- The end of a line, and an empty line. -/
def emptyLine : Text := ['\r', '\n', '\r', '\n']

section Parsing

/-- The texts before and after the first occurrence of a separator. -/
def cut (separator : Text) : Text → Option (Text × Text)
  | [] => if separator = [] then some ([], []) else none
  | c :: rest =>
      if separator.isPrefixOf (c :: rest) then
        some ([], (c :: rest).drop separator.length)
      else (cut separator rest).map fun parts => (c :: parts.1, parts.2)

def lines : Text → List Text
  | [] => [[]]
  | '\r' :: '\n' :: rest => [] :: lines rest
  | c :: rest => (lines rest).modifyHead (c :: ·)

/-- The name and the value of a header line. -/
def parseHeader (line : Text) : Text × Text := (cut [':', ' '] line).getD (line, [])

/-- The headers and the body of a message. -/
def parseMessage (text : Text) : Option (List (Text × Text) × Text) :=
  (cut emptyLine text).map fun parts => ((lines parts.1).map parseHeader, parts.2)

end Parsing

section Rendering

variable {c : Char} {separator front back : Text}

/-- A text without the first character of the separator cannot end it. -/
theorem cut_append (hfront : c ∉ front) (back : Text) : cut (c :: separator) (front ++ back) =
    (cut (c :: separator) back).map fun parts => (front ++ parts.1, parts.2) := by
  induction front with
  | nil => simp
  | cons d front ih =>
      have hne : ¬ (c :: separator).isPrefixOf (d :: (front ++ back)) := by
        intro hprefix
        obtain ⟨heq, -⟩ := List.cons_prefix_cons.mp (List.isPrefixOf_iff_prefix.mp hprefix)
        exact hfront (heq ▸ List.mem_cons_self)
      rw [List.cons_append, cut, if_neg hne, ih (List.not_mem_of_not_mem_cons hfront),
        Option.map_map]
      rfl

theorem cut_self (c : Char) (separator back : Text) :
    cut (c :: separator) (c :: separator ++ back) = some ([], back) := by
  have hprefix : (c :: separator).isPrefixOf (c :: (separator ++ back)) = true :=
    List.isPrefixOf_iff_prefix.mpr ⟨back, rfl⟩
  rw [List.cons_append, cut, if_pos hprefix, ← List.cons_append, List.drop_left]

theorem parseHeader_line {name value : Text} (hname : ':' ∉ name) :
    parseHeader (name ++ [':', ' '] ++ value) = (name, value) := by
  rw [parseHeader, List.append_assoc, cut_append hname, cut_self]
  simp

/-- The end of a line that is not followed by an empty one. -/
theorem cut_crlf {line : Text} (hline : '\r' ∉ line) (hne : line ≠ []) (back : Text) :
    cut emptyLine (crlf ++ (line ++ back)) =
      (cut emptyLine (line ++ back)).map fun parts => (crlf ++ parts.1, parts.2) := by
  obtain ⟨d, rest, rfl⟩ := List.exists_cons_of_ne_nil hne
  have hd : '\r' ≠ d := fun heq => hline (heq ▸ List.mem_cons_self)
  simp [cut, crlf, emptyLine, List.isPrefixOf, hd, Option.map_map, Function.comp_def]

/-- Texts that can stand in a head. -/
def IsLine (line : Text) : Prop := '\r' ∉ line ∧ line ≠ []

theorem cut_lines {first : Text} {rest : List Text}
    (hlines : ∀ line ∈ first :: rest, IsLine line) (body : Text) :
    cut emptyLine (crlf.intercalate (first :: rest) ++ (emptyLine ++ body)) =
      some (crlf.intercalate (first :: rest), body) := by
  induction rest generalizing first with
  | nil =>
      rw [List.intercalate_singleton, emptyLine,
        cut_append (hlines first List.mem_cons_self).1, cut_self]
      simp
  | cons second rest ih =>
      have hrest := fun line hline => hlines line (List.mem_cons_of_mem first hline)
      obtain ⟨hsecond, hne⟩ := hrest second List.mem_cons_self
      obtain ⟨tail, htail⟩ : ∃ tail, crlf.intercalate (second :: rest) ++ (emptyLine ++ body) =
          second ++ tail := by
        cases rest with
        | nil => exact ⟨_, by rw [List.intercalate_singleton]⟩
        | cons third rest =>
            exact ⟨_, by rw [List.intercalate_cons_cons, List.append_assoc, List.append_assoc]⟩
      have ih := ih hrest
      rw [htail] at ih
      rw [List.intercalate_cons_cons, List.append_assoc, List.append_assoc, htail]
      refine (cut_append (hlines first List.mem_cons_self).1 _).trans ?_
      change Option.map _ (cut emptyLine _) = _
      rw [cut_crlf hsecond hne, ih]
      simp

theorem lines_append {line : Text} (hline : '\r' ∉ line) (back : Text) :
    lines (line ++ back) = (lines back).modifyHead (line ++ ·) := by
  induction line with
  | nil => cases hback : lines back <;> simp [hback]
  | cons d line ih =>
      have hd : d ≠ '\r' := fun heq => hline (heq ▸ List.mem_cons_self)
      rw [List.cons_append, lines.eq_3 _ _ fun _ heq _ => hd heq,
        ih (List.not_mem_of_not_mem_cons hline), List.modifyHead_modifyHead]
      rfl

theorem lines_crlf (back : Text) : lines (crlf ++ back) = [] :: lines back := rfl

theorem lines_intercalate {first : Text} {rest : List Text}
    (hlines : ∀ line ∈ first :: rest, IsLine line) :
    lines (crlf.intercalate (first :: rest)) = first :: rest := by
  induction rest generalizing first with
  | nil =>
      have happend := lines_append (hlines first List.mem_cons_self).1 []
      rw [List.append_nil] at happend
      rw [List.intercalate_singleton, happend]
      simp [lines]
  | cons second rest ih =>
      rw [List.intercalate_cons_cons, List.append_assoc,
        lines_append (hlines first List.mem_cons_self).1, lines_crlf]
      rw [ih fun line hline => hlines line (List.mem_cons_of_mem first hline)]
      simp

/-- A header line is its name, a colon and a blank, and its value. -/
def headerLine (header : Text × Text) : Text := header.1 ++ [':', ' '] ++ header.2

/-- Headers without line ends come back from a message, and what follows them is the body. -/
theorem parseMessage_render {first : Text × Text} {rest : List (Text × Text)} {body : Text}
    (hheaders : ∀ header ∈ first :: rest,
      ':' ∉ header.1 ∧ '\r' ∉ header.1 ∧ '\r' ∉ header.2) :
    parseMessage (crlf.intercalate ((first :: rest).map headerLine) ++ (emptyLine ++ body)) =
      some (first :: rest, body) := by
  have hlines : ∀ line ∈ (first :: rest).map headerLine, IsLine line := by
    intro line hline
    obtain ⟨header, hheader, rfl⟩ := List.mem_map.mp hline
    obtain ⟨-, hname, hvalue⟩ := hheaders header hheader
    refine ⟨?_, by simp [headerLine]⟩
    simp [headerLine, hname, hvalue]
  have hparsed : ((first :: rest).map headerLine).map parseHeader = first :: rest := by
    rw [List.map_map]
    refine (List.map_congr_left fun header hheader => ?_).trans (List.map_id _)
    exact parseHeader_line (hheaders header hheader).1
  rw [List.map_cons] at hlines hparsed ⊢
  rw [parseMessage, cut_lines hlines, Option.map_some]
  simp only [lines_intercalate hlines, hparsed]

end Rendering

end MailText

namespace Courier

open Go
open MailText (Text crlf emptyLine headerLine parseMessage)

inductive Error where
  /-- `invalid <field>: <reason>`. -/
  | invalid (field reason : String)
deriving Repr, DecidableEq

def sanitizeDeliveryValue (value field : String) (required : Bool) : Except Error String :=
  let normalized := trimSpace value
  if normalized.toList.any fun c => c = '\r' || c = '\n' then
    .error (.invalid field "newline characters are not allowed")
  else if required && normalized = "" then .error (.invalid field "value is required")
  else .ok normalized

structure SMTPConfig where
  host : String
  port : Int
  authEnabled : Bool
  username : String
  password : String
  fromAddress : String
  fromName : String
deriving Repr, DecidableEq

structure PlainAuth where
  username : String
  password : String
  host : String
deriving Repr, DecidableEq

/-- The arguments of `smtp.SendMail`. -/
structure SentMail where
  addr : String
  auth : Option PlainAuth
  sender : String
  recipients : List String
  msg : String
deriving Repr, DecidableEq

/-- The text of a message. -/
def messageText (sender recipient subject body : String) : String :=
  "From: " ++ sender ++ "\r\n" ++
    "To: " ++ recipient ++ "\r\n" ++
    "Subject: " ++ subject ++ "\r\n" ++
    "MIME-Version: 1.0\r\n" ++
    "Content-Type: text/html; charset=\"utf-8\"\r\n" ++
    "\r\n" ++ body

/-- `sendEmail` up to its last call. -/
def sendEmail (smtp : SMTPConfig) (recipient subject body : String) : Except Error SentMail := do
  let normalizedTo ← sanitizeDeliveryValue recipient "recipient" true
  let normalizedSubject ← sanitizeDeliveryValue subject "subject" false
  let normalizedFromAddress ← sanitizeDeliveryValue smtp.fromAddress "from address" true
  let normalizedFromName ← sanitizeDeliveryValue smtp.fromName "from name" true
  let sender := normalizedFromName ++ " <" ++ normalizedFromAddress ++ ">"
  let msg := messageText sender normalizedTo normalizedSubject body
  .ok ⟨smtp.host ++ ":" ++ toString smtp.port,
    if smtp.authEnabled then some ⟨smtp.username, smtp.password, smtp.host⟩ else none,
    normalizedFromAddress, [normalizedTo], msg⟩

theorem sanitizeDeliveryValue_eq_ok {value field normalized : String} {required : Bool}
    (hok : sanitizeDeliveryValue value field required = .ok normalized) :
    normalized = trimSpace value ∧ '\r' ∉ normalized.toList := by
  rw [sanitizeDeliveryValue] at hok
  split at hok
  · cases hok
  · rename_i hnewline
    split at hok
    · cases hok
    · cases hok
      refine ⟨rfl, fun hmem => hnewline ?_⟩
      exact List.any_eq_true.mpr ⟨'\r', hmem, by decide⟩

/-- The five headers of a message. -/
def headersOf (sender recipient subject : String) : List (Text × Text) :=
  [("From".toList, sender.toList), ("To".toList, recipient.toList),
    ("Subject".toList, subject.toList), ("MIME-Version".toList, "1.0".toList),
    ("Content-Type".toList, "text/html; charset=\"utf-8\"".toList)]

/-- The literals of the message are variables here; comparing them takes long. -/
theorem toList_five {first second third fourth fifth lineEnd : String} {a b c d e : Text × Text}
    {sender recipient subject : String} (body : String)
    (ha : first.toList ++ sender.toList = headerLine a)
    (hb : second.toList ++ recipient.toList = headerLine b)
    (hc : third.toList ++ subject.toList = headerLine c)
    (hd : fourth.toList = headerLine d ++ crlf) (he : fifth.toList = headerLine e ++ crlf)
    (hend : lineEnd.toList = crlf) :
    (first ++ sender ++ lineEnd ++ second ++ recipient ++ lineEnd ++ third ++ subject ++
        lineEnd ++ fourth ++ fifth ++ lineEnd ++ body).toList =
      crlf.intercalate ([a, b, c, d, e].map headerLine) ++ (emptyLine ++ body.toList) := by
  have hempty : emptyLine = crlf ++ crlf := by decide
  simp only [List.map_cons, List.map_nil, List.intercalate_cons_cons,
    List.intercalate_singleton, ← ha, ← hb, ← hc, String.toList_append, hd, he, hend, hempty,
    List.append_assoc]

theorem toList_messageText (sender recipient subject body : String) :
    (messageText sender recipient subject body).toList =
      crlf.intercalate ((headersOf sender recipient subject).map headerLine) ++
        (emptyLine ++ body.toList) := by
  have hsender : "From: ".toList = "From".toList ++ [':', ' '] := by decide
  have hrecipient : "To: ".toList = "To".toList ++ [':', ' '] := by decide
  have hsubject : "Subject: ".toList = "Subject".toList ++ [':', ' '] := by decide
  refine toList_five body (congrArg (· ++ sender.toList) hsender)
    (congrArg (· ++ recipient.toList) hrecipient) (congrArg (· ++ subject.toList) hsubject)
    ?_ ?_ ?_
  · decide
  · decide
  · decide

theorem parseMessage_messageText {sender recipient subject : String} (body : String)
    (hsender : '\r' ∉ sender.toList) (hrecipient : '\r' ∉ recipient.toList)
    (hsubject : '\r' ∉ subject.toList) :
    parseMessage (messageText sender recipient subject body).toList =
      some (headersOf sender recipient subject, body.toList) := by
  have hnames : ∀ name ∈ ["From".toList, "To".toList, "Subject".toList, "MIME-Version".toList,
      "Content-Type".toList], ':' ∉ name ∧ '\r' ∉ name := by
    decide
  rw [toList_messageText]
  refine MailText.parseMessage_render fun header hheader => ?_
  have hvalue : '\r' ∉ header.2 := by
    simp only [List.mem_cons, List.not_mem_nil, or_false] at hheader
    rcases hheader with rfl | rfl | rfl | rfl | rfl
    · exact hsender
    · exact hrecipient
    · exact hsubject
    · decide
    · decide
  have hname := hnames header.1 (List.mem_map_of_mem hheader)
  exact ⟨hname.1, hname.2, hvalue⟩

/-- A mail that is not rejected is made of the trimmed inputs, which have no line ends. -/
theorem sendEmail_eq_ok {smtp : SMTPConfig} {recipient subject body : String} {mail : SentMail}
    (hmail : sendEmail smtp recipient subject body = .ok mail) :
    mail.msg = messageText (trimSpace smtp.fromName ++ " <" ++ trimSpace smtp.fromAddress ++ ">")
        (trimSpace recipient) (trimSpace subject) body ∧
      ∀ value ∈ [smtp.fromName, smtp.fromAddress, recipient, subject],
        '\r' ∉ (trimSpace value).toList := by
  rw [sendEmail] at hmail
  cases hrecipient : sanitizeDeliveryValue recipient "recipient" true with
  | error e =>
      rw [hrecipient] at hmail
      cases hmail
  | ok normalizedTo =>
  cases hsubject : sanitizeDeliveryValue subject "subject" false with
  | error e =>
      rw [hrecipient, hsubject] at hmail
      cases hmail
  | ok normalizedSubject =>
  cases haddress : sanitizeDeliveryValue smtp.fromAddress "from address" true with
  | error e =>
      rw [hrecipient, hsubject, haddress] at hmail
      cases hmail
  | ok normalizedFromAddress =>
  cases hname : sanitizeDeliveryValue smtp.fromName "from name" true with
  | error e =>
      rw [hrecipient, hsubject, haddress, hname] at hmail
      cases hmail
  | ok normalizedFromName =>
  rw [hrecipient, hsubject, haddress, hname] at hmail
  obtain ⟨rfl, hrecipient⟩ := sanitizeDeliveryValue_eq_ok hrecipient
  obtain ⟨rfl, hsubject⟩ := sanitizeDeliveryValue_eq_ok hsubject
  obtain ⟨rfl, haddress⟩ := sanitizeDeliveryValue_eq_ok haddress
  obtain ⟨rfl, hname⟩ := sanitizeDeliveryValue_eq_ok hname
  refine ⟨congrArg SentMail.msg (Except.ok.inj hmail).symm, ?_⟩
  simp [hrecipient, hsubject, haddress, hname]

/-- No accepted value ends a line or the head of the message: it is read back as the five
headers with the trimmed inputs, and the body. -/
theorem sendEmail_headers (smtp : SMTPConfig) (recipient subject body : String) (mail : SentMail)
    (hmail : sendEmail smtp recipient subject body = .ok mail) :
    parseMessage mail.msg.toList =
      some (headersOf (trimSpace smtp.fromName ++ " <" ++ trimSpace smtp.fromAddress ++ ">")
        (trimSpace recipient) (trimSpace subject), body.toList) := by
  obtain ⟨hmsg, hvalues⟩ := sendEmail_eq_ok hmail
  have hname := hvalues smtp.fromName (by simp)
  have haddress := hvalues smtp.fromAddress (by simp)
  rw [hmsg]
  refine parseMessage_messageText body ?_ (hvalues recipient (by simp)) (hvalues subject (by simp))
  simp [String.toList_append, haddress, hname]

def sampleSMTP : SMTPConfig := ⟨"mail.x", 25, false, "", "", " a@x", "Ada"⟩

theorem sample_sent : (sendEmail sampleSMTP "b@x" "Hi" "\r\nTo: c@x").isOk = true := by
  decide +kernel

/-- A body that looks like a header. -/
theorem sample_headers : ∃ mail, sendEmail sampleSMTP "b@x" "Hi" "\r\nTo: c@x" = .ok mail ∧
    parseMessage mail.msg.toList =
      some (headersOf (trimSpace "Ada" ++ " <" ++ trimSpace " a@x" ++ ">") (trimSpace "b@x")
        (trimSpace "Hi"), "\r\nTo: c@x".toList) := by
  have hsent := sample_sent
  cases hmail : sendEmail sampleSMTP "b@x" "Hi" "\r\nTo: c@x" with
  | error e =>
      rw [hmail] at hsent
      cases hsent
  | ok mail => exact ⟨mail, rfl, sendEmail_headers sampleSMTP "b@x" "Hi" _ mail hmail⟩

end Courier

end Aegion
