import TableAudit.Proofs.Check.Course
import TableAudit.Proofs.Inquiry.Reports

namespace TableAudit

namespace Check

end Check

end TableAudit
