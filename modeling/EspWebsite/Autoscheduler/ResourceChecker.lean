import EspWebsite.Autoscheduler.DataModel

/-!
# Resource criteria

The matchers of `resource_checker.py` and the check of a criterion for a section
and a room.
-/

namespace EspWebsite.Autoscheduler

/-- A regular expression: its text, and which strings it matches from their
start on. -/
structure Regex where
  pattern : String
  «match» : String → Bool

/-- Subclasses of `BaseSectionMatcher`. -/
inductive SectionMatcher where
  | trivial
  | negating (sectionMatcher : SectionMatcher)
  | resourceRequest (resType : String) (desiredValueRegex : Regex)

def SectionMatcher.sectionMatches (sec : AS_ClassSection) : SectionMatcher → Bool
  | .trivial => true
  | .negating sectionMatcher => !sectionMatcher.sectionMatches sec
  | .resourceRequest resType desiredValueRegex =>
      sec.resourceRequests.any fun request =>
        request.name == resType && desiredValueRegex.match request.value

/-- Subclasses of `BaseClassroomMatcher`. -/
inductive ClassroomMatcher where
  | negating (roomMatcher : ClassroomMatcher)
  | resourceClassroom (resType : String) (attributeValueRegex : Regex)
  | classroomName (nameRegex : Regex)

def ClassroomMatcher.roomMatches (room : AS_Classroom) : ClassroomMatcher → Bool
  | .negating roomMatcher => !roomMatcher.roomMatches room
  | .resourceClassroom resType attributeValueRegex =>
      room.furnishings.any fun furnishing =>
        furnishing.name == resType && attributeValueRegex.match furnishing.value
  | .classroomName nameRegex => nameRegex.match room.name

/-- A criterion relating a section to the classroom it is put in. -/
structure ResourceCriterion where
  sectionMatcher : SectionMatcher
  classroomMatcher : ClassroomMatcher
  conditionOnSection : Bool
  name : String

/-- `check_match`: false if the premise holds but the conclusion fails. -/
def ResourceCriterion.checkMatch (criterion : ResourceCriterion)
    (sec : AS_ClassSection) (room : AS_Classroom) : Bool :=
  if criterion.conditionOnSection then
    criterion.classroomMatcher.roomMatches room ||
      !criterion.sectionMatcher.sectionMatches sec
  else
    !criterion.classroomMatcher.roomMatches room ||
      criterion.sectionMatcher.sectionMatches sec

end EspWebsite.Autoscheduler
