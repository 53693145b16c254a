/- The packaged templates of an entity's tests: controller, service and integration. -/

namespace EntityScaffold.Template.Packaged

def controllerTest : List String := [
  "import \x7b Request, Response \x7d from 'express';",
  "import \x7b $\x7bModelName\x7dController \x7d from '../../../controllers/$\x7bmodelName\x7dController';",
  "import \x7b $\x7bModelName\x7dService \x7d from '../../../services/$\x7bmodelName\x7dService';",
  "",
  "jest.mock('../../../services/$\x7bmodelName\x7dService');",
  "",
  "describe('$\x7bModelName\x7dController Unit Tests', () => \x7b",
  "    let $\x7bmodelName\x7dController: $\x7bModelName\x7dController;",
  "    let mock$\x7bModelName\x7dService: jest.Mocked<$\x7bModelName\x7dService>;",
  "    let mockReq: Partial<Request>;",
  "    let mockRes: Partial<Response>;",
  "    let mockNext: jest.Mock;",
  "",
  "    beforeEach(() => \x7b",
  "        jest.clearAllMocks();",
  "        mock$\x7bModelName\x7dService = \x7b",
  "            create: jest.fn(),",
  "            getById: jest.fn(),",
  "            update: jest.fn(),",
  "            delete: jest.fn(),",
  "            getAll: jest.fn(),",
  "        \x7d as any;",
  "        $\x7bmodelName\x7dController = new $\x7bModelName\x7dController(mock$\x7bModelName\x7dService);",
  "        mockReq = \x7b params: \x7b\x7d, body: \x7b\x7d, query: \x7b\x7d \x7d;",
  "        mockRes = \x7b",
  "            status: jest.fn().mockReturnThis(),",
  "            json: jest.fn().mockReturnThis(),",
  "            __: jest.fn((key: string) => key),",
  "        \x7d as any;",
  "        mockNext = jest.fn();",
  "    \x7d);",
  "",
  "    describe('create', () => \x7b",
  "        it('should create $\x7bmodelName\x7d successfully', async () => \x7b",
  "            mockReq.body = \x7b",
  "                $\x7btestCreateData\x7d",
  "            \x7d;",
  "            mock$\x7bModelName\x7dService.create.mockResolvedValue(\x7b id: 1, ...mockReq.body \x7d);",
  "",
  "            await $\x7bmodelName\x7dController.create(mockReq as Request, mockRes as Response, mockNext);",
  "",
  "            expect(mock$\x7bModelName\x7dService.create).toHaveBeenCalledWith(mockReq.body);",
  "            expect(mockRes.status).toHaveBeenCalledWith(201);",
  "        \x7d);",
  "",
  "        it('should forward service errors', async () => \x7b",
  "            const error = new Error('Creation failed');",
  "            mock$\x7bModelName\x7dService.create.mockRejectedValue(error);",
  "",
  "            await $\x7bmodelName\x7dController.create(mockReq as Request, mockRes as Response, mockNext);",
  "",
  "            expect(mockNext).toHaveBeenCalledWith(error);",
  "        \x7d);",
  "    \x7d);",
  "",
  "    describe('update', () => \x7b",
  "        it('should update $\x7bmodelName\x7d successfully', async () => \x7b",
  "            mockReq.params = \x7b id: '1' \x7d;",
  "            mockReq.body = \x7b",
  "                $\x7btestUpdateData\x7d",
  "            \x7d;",
  "            mock$\x7bModelName\x7dService.update.mockResolvedValue(\x7b id: 1, ...mockReq.body \x7d);",
  "",
  "            await $\x7bmodelName\x7dController.update(mockReq as Request, mockRes as Response, mockNext);",
  "",
  "            expect(mock$\x7bModelName\x7dService.update).toHaveBeenCalledWith(1, mockReq.body);",
  "            expect(mockRes.status).toHaveBeenCalledWith(200);",
  "        \x7d);",
  "",
  "        it('should accept a partial update', async () => \x7b",
  "            mockReq.params = \x7b id: '1' \x7d;",
  "            mockReq.body = \x7b",
  "                $\x7btestPartialUpdateData\x7d",
  "            \x7d;",
  "            mock$\x7bModelName\x7dService.update.mockResolvedValue(\x7b id: 1, ...mockReq.body \x7d);",
  "",
  "            await $\x7bmodelName\x7dController.update(mockReq as Request, mockRes as Response, mockNext);",
  "",
  "            expect(mockRes.status).toHaveBeenCalledWith(200);",
  "        \x7d);",
  "    \x7d);",
  "",
  "    describe('getAll', () => \x7b",
  "        it('should pass query filters to the service', async () => \x7b",
  "            mockReq.query = Object.fromEntries(new URLSearchParams('$\x7btestFilterParam\x7d'));",
  "            mock$\x7bModelName\x7dService.getAll.mockResolvedValue(\x7b items: [], pagination: \x7b\x7d \x7d as any);",
  "",
  "            await $\x7bmodelName\x7dController.getAll(mockReq as Request, mockRes as Response, mockNext);",
  "",
  "            expect(mock$\x7bModelName\x7dService.getAll).toHaveBeenCalled();",
  "            expect(mockRes.status).toHaveBeenCalledWith(200);",
  "        \x7d);",
  "    \x7d);",
  "",
  "    describe('delete', () => \x7b",
  "        it('should delete $\x7bmodelName\x7d successfully', async () => \x7b",
  "            mockReq.params = \x7b id: '1' \x7d;",
  "            mock$\x7bModelName\x7dService.delete.mockResolvedValue(\x7b id: 1 \x7d as any);",
  "",
  "            await $\x7bmodelName\x7dController.delete(mockReq as Request, mockRes as Response, mockNext);",
  "",
  "            expect(mock$\x7bModelName\x7dService.delete).toHaveBeenCalledWith(1);",
  "        \x7d);",
  "    \x7d);",
  "\x7d);"]

def serviceTest : List String := [
  "import \x7b $\x7bModelName\x7dService \x7d from '../../../services/$\x7bmodelName\x7dService';",
  "import prisma from '../../../config/prismaClient';",
  "",
  "jest.mock('../../../config/prismaClient', () => (\x7b",
  "    __esModule: true,",
  "    default: \x7b",
  "        $\x7bmodelName\x7d: \x7b",
  "            create: jest.fn(),",
  "            findMany: jest.fn(),",
  "            findUnique: jest.fn(),",
  "            update: jest.fn(),",
  "            count: jest.fn(),",
  "        \x7d,",
  "    \x7d,",
  "\x7d));",
  "",
  "describe('$\x7bModelName\x7dService Unit Tests', () => \x7b",
  "    let $\x7bmodelName\x7dService: $\x7bModelName\x7dService;",
  "",
  "    beforeEach(() => \x7b",
  "        jest.clearAllMocks();",
  "        $\x7bmodelName\x7dService = new $\x7bModelName\x7dService();",
  "    \x7d);",
  "",
  "    describe('create', () => \x7b",
  "        it('should create $\x7bmodelName\x7d successfully', async () => \x7b",
  "            const $\x7bmodelName\x7dData: any = \x7b",
  "                $\x7btestCreateData\x7d",
  "            \x7d;",
  "            (prisma.$\x7bmodelName\x7d.create as jest.Mock).mockResolvedValue(\x7b id: 1, ...$\x7bmodelName\x7dData \x7d);",
  "",
  "            const result = await $\x7bmodelName\x7dService.create($\x7bmodelName\x7dData);",
  "",
  "            expect(prisma.$\x7bmodelName\x7d.create).toHaveBeenCalledWith(\x7b",
  "                data: expect.objectContaining($\x7bmodelName\x7dData),",
  "            \x7d);",
  "            expect(result).toHaveProperty('id');",
  "        \x7d);",
  "    \x7d);",
  "",
  "    describe('getById', () => \x7b",
  "        it('should return null if $\x7bmodelName\x7d not found', async () => \x7b",
  "            (prisma.$\x7bmodelName\x7d.findUnique as jest.Mock).mockResolvedValue(null);",
  "",
  "            const result = await $\x7bmodelName\x7dService.getById(999);",
  "",
  "            expect(result).toBeNull();",
  "        \x7d);",
  "    \x7d);",
  "",
  "    describe('update', () => \x7b",
  "        it('should update $\x7bmodelName\x7d successfully', async () => \x7b",
  "            const updateData: any = \x7b",
  "                $\x7btestUpdateData\x7d",
  "            \x7d;",
  "            (prisma.$\x7bmodelName\x7d.findUnique as jest.Mock).mockResolvedValue(\x7b id: 1 \x7d);",
  "            (prisma.$\x7bmodelName\x7d.update as jest.Mock).mockResolvedValue(\x7b id: 1, ...updateData \x7d);",
  "",
  "            const result = await $\x7bmodelName\x7dService.update(1, updateData);",
  "",
  "            expect(prisma.$\x7bmodelName\x7d.update).toHaveBeenCalledWith(\x7b",
  "                where: \x7b id: 1, deletedAt: null \x7d,",
  "                data: expect.objectContaining(updateData),",
  "            \x7d);",
  "            expect(result).toHaveProperty('id');",
  "        \x7d);",
  "",
  "        it('should apply a partial update', async () => \x7b",
  "            const partialData: any = \x7b",
  "                $\x7btestPartialUpdateData\x7d",
  "            \x7d;",
  "            (prisma.$\x7bmodelName\x7d.findUnique as jest.Mock).mockResolvedValue(\x7b id: 1 \x7d);",
  "            (prisma.$\x7bmodelName\x7d.update as jest.Mock).mockResolvedValue(\x7b id: 1, ...partialData \x7d);",
  "",
  "            const result = await $\x7bmodelName\x7dService.update(1, partialData);",
  "",
  "            expect(result).toMatchObject(partialData);",
  "        \x7d);",
  "    \x7d);",
  "",
  "    describe('delete', () => \x7b",
  "        it('should soft delete $\x7bmodelName\x7d', async () => \x7b",
  "            (prisma.$\x7bmodelName\x7d.update as jest.Mock).mockResolvedValue(\x7b id: 1, deletedAt: new Date() \x7d);",
  "",
  "            await $\x7bmodelName\x7dService.delete(1);",
  "",
  "            expect(prisma.$\x7bmodelName\x7d.update).toHaveBeenCalledWith(\x7b",
  "                where: \x7b id: 1 \x7d,",
  "                data: \x7b deletedAt: expect.any(Date) \x7d,",
  "            \x7d);",
  "        \x7d);",
  "    \x7d);",
  "",
  "    describe('getAll', () => \x7b",
  "        it('should list $\x7bpluralModelName\x7d filtered by $\x7btestFilterParam\x7d', async () => \x7b",
  "            const items = [\x7b id: 1 \x7d];",
  "            (prisma.$\x7bmodelName\x7d.findMany as jest.Mock).mockResolvedValue(items);",
  "            (prisma.$\x7bmodelName\x7d.count as jest.Mock).mockResolvedValue(1);",
  "",
  "            const filter = Object.fromEntries(new URLSearchParams('$\x7btestFilterParam\x7d'));",
  "            const result = await $\x7bmodelName\x7dService.getAll(filter, \x7b page: 1, limit: 10 \x7d);",
  "",
  "            expect(prisma.$\x7bmodelName\x7d.findMany).toHaveBeenCalled();",
  "            expect(result.items).toEqual(items);",
  "            expect(result.pagination.totalRecords).toBe(1);",
  "        \x7d);",
  "    \x7d);",
  "\x7d);"]

def integrationTest : List String := [
  "import request from 'supertest';",
  "import app from '../../app';",
  "import prisma from '../../config/prismaClient';",
  "",
  "const baseUrl = '$\x7bapiPrefix\x7d/$\x7bpluralModelName\x7d';",
  "",
  "describe('$\x7bModelName\x7d Module', () => \x7b",
  "    let created$\x7bModelName\x7dId: number;",
  "    let authToken: string;",
  "",
  "    beforeAll(async () => \x7b",
  "        const loginResponse = await request(app)",
  "            .post('$\x7bapiPrefix\x7d/auth/login')",
  "            .send(\x7b",
  "                username: process.env.TEST_ADMIN_USERNAME || 'admin@test.com',",
  "                password: process.env.TEST_ADMIN_PASSWORD || '123456',",
  "            \x7d);",
  "        authToken = loginResponse.body.result.token;",
  "    \x7d);",
  "",
  "    afterAll(async () => \x7b",
  "        if (created$\x7bModelName\x7dId) \x7b",
  "            await prisma.$\x7bmodelName\x7d",
  "                .delete(\x7b where: \x7b id: created$\x7bModelName\x7dId \x7d \x7d)",
  "                .catch(() => undefined);",
  "        \x7d",
  "        await prisma.$disconnect();",
  "    \x7d);",
  "",
  "    describe(`POST $\x7bbaseUrl\x7d/create`, () => \x7b",
  "        it('should create a $\x7bmodelName\x7d with valid data', async () => \x7b",
  "            const response = await request(app)",
  "                .post(`$\x7bbaseUrl\x7d/create`)",
  "                .set('Authorization', `Bearer $\x7bauthToken\x7d`)",
  "                .send(\x7b",
  "                    $\x7btestCreateData\x7d",
  "                \x7d)",
  "                .expect(201);",
  "",
  "            expect(response.body.result).toMatchObject(\x7b",
  "                $\x7btestCreateExpectation\x7d",
  "            \x7d);",
  "            created$\x7bModelName\x7dId = response.body.result.id;",
  "        \x7d);",
  "",
  "        it('should reject unauthenticated requests', async () => \x7b",
  "            await request(app)",
  "                .post(`$\x7bbaseUrl\x7d/create`)",
  "                .send(\x7b",
  "                    $\x7btestCreateData\x7d",
  "                \x7d)",
  "                .expect(401);",
  "        \x7d);",
  "",
  "        it('should reject invalid data types', async () => \x7b",
  "            const response = await request(app)",
  "                .post(`$\x7bbaseUrl\x7d/create`)",
  "                .set('Authorization', `Bearer $\x7bauthToken\x7d`)",
  "                .send(\x7b",
  "                    $\x7btestInvalidData\x7d",
  "                \x7d)",
  "                .expect(400);",
  "",
  "            expect(response.body).toHaveProperty('errors');",
  "        \x7d);",
  "    \x7d);",
  "",
  "    describe(`GET $\x7bbaseUrl\x7d/all`, () => \x7b",
  "        it('should list $\x7bpluralModelName\x7d', async () => \x7b",
  "            const response = await request(app)",
  "                .get(`$\x7bbaseUrl\x7d/all`)",
  "                .set('Authorization', `Bearer $\x7bauthToken\x7d`)",
  "                .expect(200);",
  "",
  "            expect(response.body).toHaveProperty('result');",
  "        \x7d);",
  "",
  "        it('should filter $\x7bpluralModelName\x7d', async () => \x7b",
  "            await request(app)",
  "                .get(`$\x7bbaseUrl\x7d/all?$\x7btestFilterParam\x7d`)",
  "                .set('Authorization', `Bearer $\x7bauthToken\x7d`)",
  "                .expect(200);",
  "        \x7d);",
  "    \x7d);",
  "",
  "    describe(`PUT $\x7bbaseUrl\x7d/:id`, () => \x7b",
  "        it('should update the $\x7bmodelName\x7d', async () => \x7b",
  "            const response = await request(app)",
  "                .put(`$\x7bbaseUrl\x7d/$\x7bcreated$\x7bModelName\x7dId\x7d`)",
  "                .set('Authorization', `Bearer $\x7bauthToken\x7d`)",
  "                .send(\x7b",
  "                    $\x7btestUpdateData\x7d",
  "                \x7d)",
  "                .expect(200);",
  "",
  "            expect(response.body.result).toMatchObject(\x7b",
  "                $\x7btestUpdateExpectation\x7d",
  "            \x7d);",
  "        \x7d);",
  "",
  "        it('should apply a partial update', async () => \x7b",
  "            await request(app)",
  "                .put(`$\x7bbaseUrl\x7d/$\x7bcreated$\x7bModelName\x7dId\x7d`)",
  "                .set('Authorization', `Bearer $\x7bauthToken\x7d`)",
  "                .send(\x7b",
  "                    $\x7btestPartialUpdateData\x7d",
  "                \x7d)",
  "                .expect(200);",
  "        \x7d);",
  "    \x7d);",
  "",
  "    describe(`DELETE $\x7bbaseUrl\x7d/:id`, () => \x7b",
  "        it('should delete the $\x7bmodelName\x7d', async () => \x7b",
  "            await request(app)",
  "                .delete(`$\x7bbaseUrl\x7d/$\x7bcreated$\x7bModelName\x7dId\x7d`)",
  "                .set('Authorization', `Bearer $\x7bauthToken\x7d`)",
  "                .expect(200);",
  "        \x7d);",
  "    \x7d);",
  "\x7d);"]

end EntityScaffold.Template.Packaged
