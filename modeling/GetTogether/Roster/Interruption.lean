import GetTogether.Roster.Edits

/-! Which prefixes of an operation leave the tables consistent. Answering and leaving
touch one user's data in several edits; an edit of an event lists each user it invites
just before it writes the invitation. A member array is written from the copy the
operation holds, which may leave out who has joined since. -/
namespace GetTogether.Roster

variable {υ ε : Type} {tables : Tables υ ε}

variable [DecidableEq ε]

variable [DecidableEq υ]

section Single

variable (h : tables.Consistent) (user : υ) (event : ε)

include h

end Single

/-! The prefixes of each operation. -/

end GetTogether.Roster
